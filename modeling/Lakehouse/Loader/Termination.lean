/-
A termination signal: the shutdown hook beside the main thread.

The hook clears the loop's flag and returns; the JVM halts once it has
returned, wherever the main thread is. A `Jvm` is the world with the variables
of the main thread, which are kept when it ends, and the progress of the
shutdown.

* `Jvm.sound` — between flushes, the offsets of all flushes are committed.
* `Jvm.holdsNothing_step` — which steps fill the buffer and which empty it.
* `Jvm.clean_at_halt_iff` — when nothing is held as the JVM halts.
* `Jvm.halts_anywhere` — the hook waits for nothing.
-/

import Lakehouse.Loader.Durability

namespace Lakehouse.Loader

variable {Payload Bar : Type}

/-! ### The JVM -/

inductive Shutdown where
  | none
  | hookRunning
  | hookReturned
  | halted
deriving DecidableEq, Repr

structure Jvm (Payload Bar : Type) where
  world : World Payload Bar
  /-- The variables of the main thread, since it has begun. -/
  main : Option (Process Bar)
  shutdown : Shutdown

inductive JvmAction (Payload : Type) where
  /-- A step of the main thread, of the broker or of a producer. -/
  | thread (a : Action Payload)
  | signal
  /-- `running.set(false)`, and the hook returns. -/
  | hook
  | halt

namespace Jvm

/-- The main thread begins once, before the shutdown (no hook is registered
after it), and only the hook clears its flag. -/
def allows (j : Jvm Payload Bar) : Action Payload → Bool
  | .stop | .crash _ => false
  | .start _ _ => j.main.isNone && j.shutdown = .none
  | _ => true

def step (s : Settings Payload Bar) (j : Jvm Payload Bar) :
    JvmAction Payload → Option (Jvm Payload Bar)
  | .thread a =>
      if j.shutdown ≠ .halted ∧ j.allows a then
        (Main.step s j.world a).map fun next =>
          { j with world := next, main := next.loader.or j.main }
      else none
  | .signal => if j.shutdown = .none then some { j with shutdown := .hookRunning } else none
  | .hook =>
      if j.shutdown = .hookRunning then
        match j.world.loader with
        | none => some { j with shutdown := .hookReturned }
        | some p =>
            some {
              world := Main.stop j.world p
              main := some { p with running := false }
              shutdown := .hookReturned }
      else none
  | .halt => if j.shutdown = .hookReturned then some { j with shutdown := .halted } else none

/-- A JVM starts beside a broker and a table that earlier processes may have
worked on. -/
def Initial (s : Settings Payload Bar) (j : Jvm Payload Bar) : Prop :=
  (Main.system s).Reachable j.world ∧ j.world.loader = none ∧ j.main = none ∧ j.shutdown = .none

def system (s : Settings Payload Bar) : Transition.System (Jvm Payload Bar) (JvmAction Payload) :=
  ⟨Initial s, step s⟩

end Jvm

/-! ### What the main thread holds -/

/-- The batches that are flushed after the one in progress. -/
def Resume.batches : Resume Bar → List (Batch Bar)
  | .fullBatches rest => rest
  | .aged | .closing => []

/-- A flush is in progress. -/
def Pc.flushes : Pc Bar → Bool
  | .flushing _ _ _ => true
  | _ => false

/-- No bar waits in the batch, and no flush is in progress. -/
def Process.Idle (p : Process Bar) : Prop := p.batch.isEmpty = true ∧ p.pc.flushes = false

namespace Main

variable {s : Settings Payload Bar} {w w' : World Payload Bar} {p p' : Process Bar}

/-- The poll returns a record with bars. -/
def ReceivesBars (s : Settings Payload Bar) (w : World Payload Bar) (p : Process Bar) :
    Action Payload → Prop
  | .poll (some tp) _ => ∃ record bars, (w.broker.log tp).nextFrom (p.position tp) = some record ∧
      s.decodeFrame record.value = .ok bars ∧ bars ≠ []
  | _ => False

/-- `commitSync` returns, or has nothing to commit, in the flush of the last
batch, and no bar waits behind it. -/
def EndsFlush (p : Process Bar) : Action Payload → Prop
  | .commitOffsets outcome _ => p.batch.isEmpty = true ∧
      ∃ batch resume startedAt inserted,
        p.pc = .flushing batch resume (.offsetCommit startedAt inserted) ∧
          resume.batches = [] ∧ (outcome = .committed ∨ flushOffsets batch.entries = [])
  | _ => False

theorem flushes_afterAdd (full : List (Batch Bar)) :
    (afterAdd full).flushes = false ↔ full = [] := by
  cases full <;> simp [afterAdd, Pc.flushes]

theorem flushes_afterFlush (window : BatchWindow) (resume : Resume Bar) :
    (afterFlush window resume).1.flushes = false ↔ resume.batches = [] := by
  unfold afterFlush
  split <;> simp [Pc.flushes, Resume.batches]

theorem idle_of_flushing {batch : Batch Bar} {resume : Resume Bar} {phase : Phase Bar}
    (hpc : p.pc = .flushing batch resume phase) : ¬ p.Idle := by
  intro h
  have hidle := h.2
  rw [hpc] at hidle
  cases hidle

/-- The buffer is left empty exactly when it was and the record has no bars. -/
theorem idle_received {tp : TopicPartition} {offset : Nat} {bars : List Bar} {c : Readings} :
    (received p tp offset bars c).Idle ↔ p.batch.isEmpty = true ∧ bars = [] := by
  have hentries := p.batch.add_entries ⟨tp.topic, tp.partition, offset⟩ bars
  constructor
  · intro h
    obtain ⟨hempty, hflushes⟩ := h
    have hpending : (p.batch.add ⟨tp.topic, tp.partition, offset⟩ bars).1.pending = [] :=
      List.isEmpty_iff.mp hempty
    have hfull := (flushes_afterAdd _).mp hflushes
    rw [hpending, hfull] at hentries
    obtain ⟨hold, hnew⟩ := List.append_eq_nil_iff.mp hentries.symm
    exact ⟨List.isEmpty_iff.mpr hold, (sourceEntries_eq_nil_iff _ _).mp hnew⟩
  · intro h
    obtain ⟨hempty, rfl⟩ := h
    exact ⟨hempty, rfl⟩

theorem idle_flushDone {batch : Batch Bar} {resume : Resume Bar} {health : LoaderHealthReporter} :
    (flushDone p batch resume health).Idle ↔ p.batch.isEmpty = true ∧ resume.batches = [] :=
  and_congr_right fun _ => flushes_afterFlush p.batchWindow resume

/-- A step of the main thread leaves nothing held exactly if nothing was and it
receives no bar, or if it ends the flush that took the last ones. -/
theorem idle_step {a : Action Payload} (hs : ProcessStep s w p a w')
    (hcrash : ∀ landed, a ≠ .crash landed) :
    (w'.loader.getD p).Idle ↔ (p.Idle ∧ ¬ ReceivesBars s w p a) ∨ EndsFlush p a := by
  cases hs with
  | @received tp record bars c hpc hmem hnext hdecode =>
      have hreceives : ReceivesBars s w p (.poll (some tp) c) ↔ bars ≠ [] := by
        simp [ReceivesBars, hnext, hdecode]
      have hidle : p.Idle ↔ p.batch.isEmpty = true := by simp [Process.Idle, hpc, Pc.flushes]
      simp [World.put, idle_received, hreceives, hidle, EndsFlush]
  | decodeFailed hpc hmem hnext hdecode =>
      simp [ReceivesBars, EndsFlush, World.exit, hnext, hdecode]
  | offsetsCommitted hpc hoffsets =>
      have hbusy := idle_of_flushing hpc
      simp [World.put, idle_flushDone, hbusy, EndsFlush, hpc, hoffsets]
  | offsetCommitFailed hpc hoffsets =>
      simp [ReceivesBars, EndsFlush, commitFailed, World.exit, hpc, hoffsets]
  | announced hpc | nothingToWrite hpc | dataFileWritten hpc | tableCommitted hpc =>
      simp [Process.Idle, World.put, EndsFlush, hpc, Pc.flushes]
  | aged hpc hne hexpired hdrain =>
      simp [Process.Idle, World.put, EndsFlush, Pc.flushes, hne]
  | finalFlush hpc hstopped hdrain =>
      obtain ⟨hne, -, -, -⟩ := BoundedBatch.drain_eq_some hdrain
      simp [Process.Idle, World.put, EndsFlush, Pc.flushes, BoundedBatch.isEmpty, hne]
  | crashed => exact absurd rfl (hcrash _)
  | stopped => simp [Process.Idle, stop, World.put, ReceivesBars, EndsFlush]
  | pollFailed | dataFileFailed | tableCommitFailed | closed =>
      simp [ReceivesBars, EndsFlush, commitFailed, World.exit]
  | assign hpc | pollNothing hpc | windowReset hpc | notAged hpc | heartbeat hpc
  | enteredLoop hpc | leftLoop hpc =>
      simp [Process.Idle, World.put, ReceivesBars, EndsFlush, hpc, Pc.flushes]

/-! ### Committed offsets -/

/-- What the flushes made eligible is committed. -/
def OffsetsCommitted (broker : Broker Payload) (p : Process Bar) : Prop :=
  ∀ tp next, lastFinal tp p.flushed = some next → broker.committed tp = some next

/-- A flushed offset is past the beginning of the log, so it is no default. -/
theorem offsetsCommitted (h : (system s).Reachable w) (hp : w.loader = some p) :
    OffsetsCommitted w.broker p := by
  intro tp next hnext
  have hs := session_sound h hp
  have hstart : w.broker.startOffset tp = next := by
    rw [hs.committed tp]
    exact congrArg (Option.getD · _) hnext
  cases hcommitted : w.broker.committed tp with
  | some offset =>
      rw [Broker.startOffset, hcommitted] at hstart
      exact congrArg some hstart
  | none =>
      rw [Broker.startOffset, hcommitted] at hstart
      -- The flushed record is one of the log.
      obtain ⟨e, he, rfl⟩ := Option.map_eq_some_iff.mp hnext
      obtain ⟨hmem, hfinal⟩ := List.mem_filter.mp (List.mem_of_getLast? he)
      simp only [Bool.and_eq_true, decide_eq_true_eq] at hfinal
      have hpolled : e ∈ p.session.polled.flatMap Polled.entries := by
        rw [← hs.stream]
        exact List.mem_append_left _ hmem
      obtain ⟨r, hr, hentry⟩ := List.mem_flatMap.mp hpolled
      have hsource := source_of_mem_sourceEntries hentry
      have hfrom : r ∈ polledFrom tp p.session.polled :=
        mem_polledFrom.mpr ⟨hr, hsource ▸ hfinal.2⟩
      obtain ⟨record, hrecord, hdecodes⟩ := exists_of_mem_polled (hs.delivered tp) hfrom
      have hbegin := (w.broker.log tp).beginning_le record (PartitionLog.mem_slice.mp hrecord).1
      have hoffset : e.source.offset = record.offset := by rw [hsource, hdecodes.1]
      simp only [Option.getD_none] at hstart
      omega

/-- A main thread that ends outside a flush leaves the broker as it is. -/
theorem broker_of_exit {a : Action Payload} (hs : ProcessStep s w p a w')
    (hcrash : ∀ landed, a ≠ .crash landed) (hnone : w'.loader = none)
    (hflushes : p.pc.flushes = false) : w'.broker = w.broker := by
  cases hs with
  | decodeFailed => rfl
  | pollFailed => rfl
  | closed => rfl
  | dataFileFailed hpc => simp [hpc, Pc.flushes] at hflushes
  | tableCommitFailed hpc => simp [hpc, Pc.flushes] at hflushes
  | offsetCommitFailed hpc => simp [hpc, Pc.flushes] at hflushes
  | crashed => exact absurd rfl (hcrash _)
  | _ => cases hnone

end Main

/-! ### Runs of the JVM -/

namespace Jvm

open Main (OffsetsCommitted)

variable {s : Settings Payload Bar} {j next : Jvm Payload Bar} {p : Process Bar}

structure Sound (s : Settings Payload Bar) (j : Jvm Payload Bar) : Prop where
  reachable : (Main.system s).Reachable j.world
  synced : ∀ p, j.world.loader = some p → j.main = some p
  committed : ∀ p, j.main = some p → p.pc.flushes = false → OffsetsCommitted j.world.broker p

/-- The main thread has ended, or a producer has appended. -/
theorem Sound.ended {world : World Payload Bar} {a : Action Payload} (hj : j.Sound s)
    (hallowed : j.allows a = true) (hstep : Main.Step s j.world a world)
    (hnone : world.loader = none) (hmain : j.main = some p) (hflushes : p.pc.flushes = false) :
    OffsetsCommitted world.broker p := by
  have hcommitted := hj.committed p hmain hflushes
  cases hstep with
  | produce => exact hcommitted
  | startRefused => exact hcommitted
  | startFailed => exact hcommitted
  | started => cases hnone
  | process hp hs =>
      have hsame := (hj.synced _ hp).symm.trans hmain
      cases hsame
      have hcrash : ∀ landed, a ≠ .crash landed := by
        rintro landed rfl
        cases hallowed
      rw [Main.broker_of_exit hs hcrash hnone hflushes]
      exact hcommitted

theorem Sound.thread {a : Action Payload} (hj : j.Sound s)
    (h : step s j (.thread a) = some next) : next.Sound s := by
  rw [step] at h
  split at h
  · rename_i hallowed
    obtain ⟨world, hstep, rfl⟩ := Option.map_eq_some_iff.mp h
    have hreachable := hj.reachable.step hstep
    refine ⟨hreachable, fun p hp => ?_, fun p hp hflushes => ?_⟩
    · have hloader : world.loader = some p := hp
      exact congrArg (Option.or · j.main) hloader
    · cases hloader : world.loader with
      | some q =>
          have hsame : q = p := by simpa [hloader] using hp
          exact hsame ▸ Main.offsetsCommitted hreachable hloader
      | none =>
          have hmain : j.main = some p := by simpa [hloader] using hp
          exact hj.ended hallowed.2 (Main.step_cases hstep) hloader hmain hflushes
  · cases h

theorem Sound.hook (hj : j.Sound s) (h : step s j .hook = some next) : next.Sound s := by
  rw [step] at h
  split at h
  · split at h
    · cases h
      exact ⟨hj.reachable, hj.synced, hj.committed⟩
    · rename_i p hp
      cases h
      have hstop : Main.step s j.world .stop = some (Main.stop j.world p) := by
        simp only [Main.step, hp, Option.bind_some, Main.processStep]
      have hreachable : (Main.system s).Reachable (Main.stop j.world p) :=
        hj.reachable.step (a := .stop) hstop
      refine ⟨hreachable, fun q hq => hq, fun q hq _ => ?_⟩
      cases hq
      exact Main.offsetsCommitted hreachable rfl
  · cases h

theorem sound (h : (system s).Reachable j) : j.Sound s := by
  induction h with
  | init hinit =>
      obtain ⟨hreachable, hloader, hmain, -⟩ := hinit
      exact ⟨hreachable, by simp [hloader], by simp [hmain]⟩
  | @step j next a _ hstep ih =>
      cases a with
      | thread a => exact ih.thread hstep
      | hook => exact ih.hook hstep
      | signal =>
          obtain ⟨-, heq⟩ := Option.ite_none_right_eq_some.mp hstep
          cases heq
          exact ⟨ih.reachable, ih.synced, ih.committed⟩
      | halt =>
          obtain ⟨-, heq⟩ := Option.ite_none_right_eq_some.mp hstep
          cases heq
          exact ⟨ih.reachable, ih.synced, ih.committed⟩

/-! ### What is held, step by step -/

/-- The main thread has not begun, or holds no bar. -/
def HoldsNothing (j : Jvm Payload Bar) : Prop := ∀ p, j.main = some p → p.Idle

def ReceivesBars (s : Settings Payload Bar) (j : Jvm Payload Bar) : JvmAction Payload → Prop
  | .thread a => ∃ p, j.world.loader = some p ∧ Main.ReceivesBars s j.world p a
  | _ => False

def EndsFlush (j : Jvm Payload Bar) : JvmAction Payload → Prop
  | .thread a => ∃ p, j.world.loader = some p ∧ Main.EndsFlush p a
  | _ => False

theorem holdsNothing_thread {a : Action Payload} (hj : j.Sound s)
    (h : step s j (.thread a) = some next) :
    HoldsNothing next ↔
      (HoldsNothing j ∧ ¬ ReceivesBars s j (.thread a)) ∨ EndsFlush j (.thread a) := by
  rw [step] at h
  split at h
  · rename_i hallowed
    obtain ⟨world, hstep, rfl⟩ := Option.map_eq_some_iff.mp h
    cases Main.step_cases hstep with
    | produce =>
        have hsame : j.world.loader.or j.main = j.main := by
          cases hloader : j.world.loader with
          | none => rfl
          | some p => exact (hj.synced p hloader).symm
        simp [HoldsNothing, ReceivesBars, EndsFlush, Main.ReceivesBars, Main.EndsFlush, hsame]
    | startRefused hnone =>
        simp [HoldsNothing, ReceivesBars, EndsFlush, hnone]
    | startFailed hnone =>
        simp [HoldsNothing, ReceivesBars, EndsFlush, hnone, World.exit]
    | started hnone hhealth hbatch =>
        have hmain : j.main = none := by simpa [allows] using (Bool.and_eq_true_iff.mp hallowed.2).1
        have hempty := (BoundedBatch.new_eq_ok hbatch).1
        simp [HoldsNothing, ReceivesBars, EndsFlush, hnone, hmain, World.put, Main.fresh,
          Process.Idle, Pc.flushes, BoundedBatch.isEmpty, hempty]
    | @process p _ _ hp hs =>
        have hcrash : ∀ landed, a ≠ .crash landed := by
          rintro landed rfl
          cases hallowed.2
        have hmain := hj.synced p hp
        have hnext : world.loader.or j.main = some (world.loader.getD p) := by
          cases world.loader <;> simp [hmain]
        simpa [HoldsNothing, ReceivesBars, EndsFlush, hp, hmain, hnext] using
          Main.idle_step hs hcrash
  · cases h

/-- Nothing is held after a step exactly if nothing was and no bar is received,
or if the last flush ends. -/
theorem holdsNothing_step (j : Jvm Payload Bar) (a : JvmAction Payload) (next : Jvm Payload Bar)
    (hj : (system s).Reachable j) (h : (system s).step j a = some next) :
    HoldsNothing next ↔ (HoldsNothing j ∧ ¬ ReceivesBars s j a) ∨ EndsFlush j a := by
  have hsound := sound hj
  cases a with
  | thread a => exact holdsNothing_thread hsound h
  | signal =>
      obtain ⟨-, heq⟩ := Option.ite_none_right_eq_some.mp h
      cases heq
      simp [HoldsNothing, ReceivesBars, EndsFlush]
  | halt =>
      obtain ⟨-, heq⟩ := Option.ite_none_right_eq_some.mp h
      cases heq
      simp [HoldsNothing, ReceivesBars, EndsFlush]
  | hook =>
      obtain ⟨-, h⟩ := Option.ite_none_right_eq_some.mp h
      cases hloader : j.world.loader with
      | none =>
          simp only [hloader] at h
          cases h
          simp [HoldsNothing, ReceivesBars, EndsFlush]
      | some p =>
          simp only [hloader] at h
          cases h
          simp [HoldsNothing, ReceivesBars, EndsFlush, hsound.synced p hloader, Process.Idle]

/-! ### When the JVM halts -/

/-- Nothing is held: the batch is empty, no flush is in progress, and what the
flushes made eligible is committed. -/
structure Clean (broker : Broker Payload) (p : Process Bar) : Prop where
  batch : p.batch.isEmpty = true
  idle : p.pc.flushes = false
  committed : OffsetsCommitted broker p

/-- From the signal on: the main thread holds nothing and receives no more bars
before the halt, or it ends its last flush in time and receives none after. -/
def EndsIdle (s : Settings Payload Bar) (j : Jvm Payload Bar) (after : List (JvmAction Payload)) :
    Prop :=
  (HoldsNothing j ∧ (system s).Avoids (ReceivesBars s) j after) ∨
    (system s).EndsSet EndsFlush (ReceivesBars s) j after

/-- The signal has come in `signalled`, and the JVM halts after the steps
`after` of the hook, the main thread, the broker and the producers. -/
theorem clean_at_halt_iff {start signalled : Jvm Payload Bar}
    {before after : List (JvmAction Payload)} (hstart : Initial s start)
    (hbefore : (system s).run start (before ++ [.signal]) = some signalled)
    (hafter : (system s).run signalled (after ++ [.halt]) = some j) (hmain : j.main = some p) :
    Clean j.world.broker p ↔ EndsIdle s signalled after := by
  have hsignalled := Transition.System.Reachable.of_run (.init hstart) hbefore
  have hsound := sound (.of_run hsignalled hafter)
  rw [Transition.System.run_append] at hafter
  obtain ⟨last, hlast, hhalt⟩ := Option.bind_eq_some_iff.mp hafter
  have hend := Transition.System.holds_at_end_iff holdsNothing_step hsignalled hlast
  have hsame : last.main = j.main := by
    simp only [Transition.System.run_cons, Transition.System.run_nil, Option.bind_fun_some] at hhalt
    obtain ⟨-, heq⟩ := Option.ite_none_right_eq_some.mp hhalt
    cases heq
    rfl
  have hidle : HoldsNothing last ↔ p.Idle := by simp [HoldsNothing, hsame, hmain]
  rw [EndsIdle, ← hend, hidle]
  constructor
  · intro h
    exact ⟨h.batch, h.idle⟩
  · intro h
    exact ⟨h.1, h.2, hsound.committed p hmain h.2⟩

/-- The hook does not wait: whatever the main thread holds, the JVM can halt
there. -/
theorem halts_anywhere (hj : j.shutdown = .none) (hp : j.world.loader = some p) :
    ∃ last, (system s).run j [.signal, .hook, .halt] = some last ∧
      last.main = some { p with running := false } := by
  refine ⟨⟨Main.stop j.world p, some { p with running := false }, .halted⟩, ?_, rfl⟩
  simp [system, step, hj, hp]

/-! ### Two halts -/

def sampleJvm : Jvm (List Nat) Nat := ⟨Main.sampleWorld, none, .none⟩

theorem sampleJvm_initial : Initial Main.sampleSettings sampleJvm :=
  ⟨.init Main.sampleWorld_initial, rfl, rfl, rfl⟩

/-- A frame is polled; with two bars it is flushed at once, with one it waits. -/
def polledFrame (frame : List Nat) : List (JvmAction (List Nat)) :=
  ((.produce Main.samplePartition 0 frame :: Main.pollSteps 1).map .thread)

/-- The signal comes while a frame of two bars is flushed. -/
def midFlush : Jvm (List Nat) Nat :=
  ((system Main.sampleSettings).run sampleJvm (polledFrame [1, 2] ++ [.signal])).get rfl

theorem run_midFlush : (system Main.sampleSettings).run sampleJvm
    (polledFrame [1, 2] ++ [.signal]) = some midFlush := rfl

/-- The main thread goes on with the flush, and the hook returns behind it. -/
def flushedInTime : List (JvmAction (List Nat)) := (Main.flushSteps 1).map .thread ++ [.hook]

theorem midFlush_endsIdle : EndsIdle Main.sampleSettings midFlush flushedInTime := by
  refine Or.inr ⟨_, rfl, Or.inr ⟨_, rfl, Or.inr ⟨_, rfl, Or.inr ⟨_, rfl, Or.inl ⟨?_, ?_⟩⟩⟩⟩⟩
  · exact ⟨_, rfl, rfl, _, _, _, _, rfl, rfl, Or.inl rfl⟩
  · exact ⟨id, fun _ _ => trivial⟩

theorem flushedInTime_clean : ∃ j p,
    (system Main.sampleSettings).run midFlush (flushedInTime ++ [.halt]) = some j ∧
      j.main = some p ∧ Clean j.world.broker p := by
  have hafter : (system Main.sampleSettings).run midFlush (flushedInTime ++ [.halt]) = some _ := rfl
  exact ⟨_, _, hafter, rfl,
    (clean_at_halt_iff sampleJvm_initial run_midFlush hafter rfl).mpr midFlush_endsIdle⟩

/-- The signal comes while a bar waits: the JVM halts with it. -/
theorem waitingBar_not_clean : ∃ j p, (system Main.sampleSettings).run sampleJvm
      (polledFrame [1] ++ [.signal, .hook] ++ [.halt]) = some j ∧ j.main = some p ∧
        j.shutdown = .halted ∧ ¬ Clean j.world.broker p :=
  ⟨_, _, rfl, rfl, rfl, fun h => absurd h.batch (by decide)⟩

end Jvm

end Lakehouse.Loader
