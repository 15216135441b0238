/-
`BatchWindow.java`: the age of the current non-empty batch.

`openedAt` is a `System.nanoTime()` reading or the sentinel `CLOSED`. Every
method takes the reading its call of the supplier returns; `open` takes one
only when the window is closed, which the model does not need to distinguish.
-/

import Lakehouse.Loader.JavaTime

namespace Lakehouse.Loader

structure BatchWindow where
  openedAt : Int
deriving DecidableEq, Repr

namespace BatchWindow

def CLOSED : Int := -1

/-- `new BatchWindow()`. -/
def new : BatchWindow := ⟨CLOSED⟩

/-- `open()`. -/
def openAt (w : BatchWindow) (nanoTime : Int) : BatchWindow :=
  if w.openedAt = CLOSED then ⟨nanoTime⟩ else w

/-- `reset(hasRemainder)`. -/
def reset (hasRemainder : Bool) (nanoTime : Int) : BatchWindow :=
  ⟨if hasRemainder then nanoTime else CLOSED⟩

/-- `close()`. -/
def close : BatchWindow := ⟨CLOSED⟩

/-- `expired(maximumAge)`. -/
def expired (w : BatchWindow) (maximumAge : Duration) (nanoTime : Int) : Bool :=
  w.openedAt ≠ CLOSED && decide (maximumAge ≤ toLong (nanoTime - w.openedAt))

end BatchWindow

end Lakehouse.Loader
