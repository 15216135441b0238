/-
Binary64 numbers and integers.

`truncate` drops the fraction, `integer?` is the integer a double is exactly,
and the two agree where the second is defined. `ofRatio` is the double nearest
to a quotient of integers, `nearest` and `roundTo` round to an integer and to a
number of decimal places, halves to even.
-/

import Mathlib

namespace Double

open Float.Model (UnpackedFloat)

/-- `m * 2 ^ e` without its fraction. -/
def scale (m : Nat) (e : Int) : Nat :=
  match e with
  | .ofNat n => m * 2 ^ n
  | .negSucc n => m / 2 ^ (n + 1)

/-- The integer part, toward zero; `nan` and infinities have the values given. -/
def truncate (nan negativeInfinity positiveInfinity : Int) (x : Float) : Int :=
  match x.toModel.unpack with
  | .notANumber => nan
  | .infinity .negative => negativeInfinity
  | .infinity .positive => positiveInfinity
  | .zero _ => 0
  | .finite sign m e _ => sign.apply (scale m e)

/-- The integer a double is, if it is one. -/
def integer? (x : Float) : Option Int :=
  match x.toModel.unpack with
  | .zero _ => some 0
  | .finite sign m (.ofNat n) _ => some (sign.apply (m * 2 ^ n : Nat))
  | .finite sign m (.negSucc n) _ =>
      if 2 ^ (n + 1) ∣ m then some (sign.apply (m / 2 ^ (n + 1) : Nat)) else none
  | _ => none

/-- The integer nearest to `n / d`, the even one of two. -/
def nearestEven (n d : Nat) : Nat :=
  let q := n / d
  let twice := 2 * (n % d)
  if twice < d then q
  else if twice = d ∧ q % 2 = 0 then q
  else q + 1

/-- `m * 2 ^ e * k`, to the nearest integer. -/
def scaleNearest (m : Nat) (e : Int) (k : Nat) : Nat :=
  match e with
  | .ofNat n => m * 2 ^ n * k
  | .negSucc n => nearestEven (m * k) (2 ^ (n + 1))

/-- The nearest integer to `x * k`, if `x` is finite. -/
def nearest (x : Float) (k : Nat) : Option Int :=
  match x.toModel.unpack with
  | .zero _ => some 0
  | .finite sign m e _ => some (sign.apply (scaleNearest m e k : Nat))
  | _ => none

/-- `x` to `places` decimal places, as the double nearest to that decimal. -/
def roundTo (places : Nat) (x : Float) : Float :=
  match x.toModel.unpack with
  | .finite .positive m e _ => Float.ofScientific (scaleNearest m e (10 ^ places)) true places
  | .finite .negative m e _ => (Float.ofScientific (scaleNearest m e (10 ^ places)) true places).neg
  | _ => x

/-- The double nearest to `n / d`, infinite where that is out of range. -/
def ofRatio (n d : Nat) : Float :=
  if h : 0 < n ∧ 0 < d then
    .ofModel (.pack (.div .binary64 (.finite .positive n 0 h.1) (.finite .positive d 0 h.2)))
  else 0

theorem truncate_of_integer? {x : Float} {n : Int} (h : integer? x = some n)
    (nan negativeInfinity positiveInfinity : Int) :
    truncate nan negativeInfinity positiveInfinity x = n := by
  unfold integer? at h
  unfold truncate
  split at h
  · simp_all
  · simp_all [scale]
  · split at h
    · simp_all [scale]
    · simp at h
  · simp at h

end Double
