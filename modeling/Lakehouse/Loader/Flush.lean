/-
One flush as a whole.

`flush` is `Main.flush` as a function of what its calls answer, as far as the two
stores it writes to. In the world of the loader it is a run of steps (`flush_run`),
so what is proved of it holds of the steps.
-/

import Lakehouse.Loader.MainStep

namespace Lakehouse.Loader

variable {Payload Bar : Type}

/-- The stores a flush writes to. -/
structure Durable (Bar : Type) where
  table : Table Bar
  committed : TopicPartition → Option Nat

def World.durable (w : World Payload Bar) : Durable Bar := ⟨w.table, w.broker.committed⟩

/-- How the calls of a flush end, and the readings `append` takes of the clock. -/
structure FlushEnvironment where
  pathAt : Instant
  ingestedAt : Instant
  file : FileOutcome
  commit : CommitOutcome
  offsets : OffsetOutcome
deriving DecidableEq, Repr

namespace Main

/-- `commitSync`, which is not called with nothing to commit. -/
def offsetOutcome (batch : Batch Bar) (outcome : OffsetOutcome) : OffsetOutcome :=
  if (flushOffsets batch.entries).isEmpty then .committed else outcome

/-- `Main.flush`. -/
def flush (hash : Bar → String) (d : Durable Bar) (batch : Batch Bar) (env : FlushEnvironment) :
    Durable Bar × Except LoaderCommitException Nat :=
  match IcebergWriter.append hash d.table batch.bars env.pathAt env.ingestedAt env.file
      env.commit with
  | (table, .error failure) => (⟨table, d.committed⟩, .error failure)
  | (table, .ok inserted) =>
      let applied := commitSync (flushOffsets batch.entries) d.committed
      match offsetOutcome batch env.offsets with
      | .failed cause landed =>
          (⟨table, if landed then applied else d.committed⟩, .error (.offsetCommitFailed cause))
      | .committed => (⟨table, applied⟩, .ok inserted)

/-- A flush has ended: the process has reported the failure last of all, or it has
printed the line of a commit and goes on. -/
def FlushEnded (flushed : List (Entry Bar)) (batch : Batch Bar) (w : World Payload Bar) :
    Except LoaderCommitException Nat → Prop
  | .error failure => w.loader = none ∧ ∃ before health duration emittedAt,
      w.output = before ++
        healthLines (LoaderHealthReporter.commitFailed health failure duration emittedAt).2
  | .ok inserted => ∃ p' before committedAt, w.loader = some p' ∧
      p'.flushed = flushed ++ batch.entries ∧
      w.output = before ++ [.committed committedAt batch.entries.length inserted]

/-- The process is about to make the call of a phase, having flushed these entries before. -/
def AtPhase (flushed : List (Entry Bar)) (batch : Batch Bar) (resume : Resume Bar)
    (w : World Payload Bar) (phase : Phase Bar) : Prop :=
  ∃ p, w.loader = some p ∧ p.flushed = flushed ∧ p.pc = .flushing batch resume phase

section Run

variable (s : Settings Payload Bar) {w : World Payload Bar} {flushed : List (Entry Bar)}
  {batch : Batch Bar} {resume : Resume Bar} {startedAt : Int}

theorem flushEnded_commitFailed (w : World Payload Bar) (p : Process Bar) (c : Readings)
    (failure : LoaderCommitException) :
    FlushEnded flushed batch (commitFailed w p c failure startedAt) (.error failure) :=
  ⟨rfl, w.output, p.health, _, _, rfl⟩

theorem announce_run (h : AtPhase flushed batch resume w .announce) (c : Readings) :
    ∃ w', (system s).step w (.announce c) = some w' ∧ w'.durable = w.durable ∧
      AtPhase flushed batch resume w' (.dataFile c.nano) := by
  obtain ⟨p, hp, hflushed, hpc⟩ := h
  have hstep : (system s).step w (.announce c) = announce w p c := by
    simp [system, step, hp, processStep]
  rw [hstep]
  unfold announce
  rw [hpc]
  exact ⟨_, rfl, rfl, _, rfl, hflushed, rfl⟩

theorem dataFile_run (h : AtPhase flushed batch resume w (.dataFile startedAt))
    (hne : batch.bars.isEmpty = false) (outcome : FileOutcome) (c : Readings) :
    ∃ w' result, (system s).step w (.writeDataFile outcome c) = some w' ∧
      IcebergWriter.writeDataFile s.hash w.table batch.bars c.first c.second outcome =
        (w'.table, result) ∧ w'.broker = w.broker ∧
      match result with
      | .error failure => FlushEnded flushed batch w' (.error failure)
      | .ok file => AtPhase flushed batch resume w' (.tableCommit startedAt file) := by
  obtain ⟨p, hp, hflushed, hpc⟩ := h
  have hstep : (system s).step w (.writeDataFile outcome c) = writeDataFile s w p c outcome := by
    simp [system, step, hp, processStep]
  rw [hstep]
  unfold writeDataFile
  rw [hpc]
  cases hwrite : IcebergWriter.writeDataFile s.hash w.table batch.bars c.first c.second outcome with
  | mk table result =>
      cases result with
      | error failure =>
          exact ⟨commitFailed (w.withTable table) p c failure startedAt, .error failure,
            by simp [hne, hwrite], rfl, rfl, flushEnded_commitFailed _ _ _ _⟩
      | ok file =>
          exact ⟨(w.withTable table).put
              { p with pc := .flushing batch resume (.tableCommit startedAt file) } [],
            .ok file, by simp [hne, hwrite], rfl, rfl, _, rfl, hflushed, rfl⟩

theorem nothingToWrite_run (h : AtPhase flushed batch resume w (.dataFile startedAt))
    (hempty : batch.bars.isEmpty = true) (outcome : FileOutcome) (c : Readings) :
    ∃ w', (system s).step w (.writeDataFile outcome c) = some w' ∧ w'.durable = w.durable ∧
      AtPhase flushed batch resume w' (.offsetCommit startedAt 0) := by
  obtain ⟨p, hp, hflushed, hpc⟩ := h
  have hstep : (system s).step w (.writeDataFile outcome c) = writeDataFile s w p c outcome := by
    simp [system, step, hp, processStep]
  rw [hstep]
  unfold writeDataFile
  rw [hpc]
  exact ⟨_, if_pos hempty, rfl, _, rfl, hflushed, rfl⟩

theorem tableCommit_run {file : DataFile Bar}
    (h : AtPhase flushed batch resume w (.tableCommit startedAt file)) (outcome : CommitOutcome)
    (c : Readings) :
    ∃ w' failure?, (system s).step w (.commitTable outcome c) = some w' ∧
      IcebergWriter.commitAppend w.table file outcome = (w'.table, failure?) ∧
      w'.broker = w.broker ∧
      match failure? with
      | some failure => FlushEnded flushed batch w' (.error failure)
      | none => AtPhase flushed batch resume w' (.offsetCommit startedAt batch.bars.length) := by
  obtain ⟨p, hp, hflushed, hpc⟩ := h
  have hstep : (system s).step w (.commitTable outcome c) = commitTable w p c outcome := by
    simp [system, step, hp, processStep]
  rw [hstep]
  unfold commitTable
  rw [hpc]
  cases hcommit : IcebergWriter.commitAppend w.table file outcome with
  | mk table failure? =>
      cases failure? with
      | some failure =>
          exact ⟨commitFailed (w.withTable table) p c failure startedAt, some failure,
            by simp [hcommit], rfl, rfl, flushEnded_commitFailed _ _ _ _⟩
      | none =>
          exact ⟨(w.withTable table).put
              { p with pc := .flushing batch resume (.offsetCommit startedAt batch.bars.length) } [],
            none, by simp [hcommit], rfl, rfl, _, rfl, hflushed, rfl⟩

theorem offsetCommit_run {inserted : Nat}
    (h : AtPhase flushed batch resume w (.offsetCommit startedAt inserted))
    (outcome : OffsetOutcome) (c : Readings) :
    ∃ w', (system s).step w (.commitOffsets outcome c) = some w' ∧ w'.table = w.table ∧
      match offsetOutcome batch outcome with
      | .failed cause landed =>
          w'.broker.committed = (if landed then
            commitSync (flushOffsets batch.entries) w.broker.committed else w.broker.committed) ∧
          FlushEnded flushed batch w' (.error (.offsetCommitFailed cause))
      | .committed =>
          w'.broker.committed = commitSync (flushOffsets batch.entries) w.broker.committed ∧
          FlushEnded flushed batch w' (.ok inserted) := by
  obtain ⟨p, hp, hflushed, hpc⟩ := h
  have hstep : (system s).step w (.commitOffsets outcome c) = commitOffsets w p c outcome := by
    simp [system, step, hp, processStep]
  rw [hstep]
  unfold commitOffsets
  rw [hpc]
  show ∃ w', (match offsetOutcome batch outcome with
    | .failed cause landed => _
    | .committed => _) = some w' ∧ _
  cases offsetOutcome batch outcome with
  | failed cause landed =>
      refine ⟨_, rfl, ?_, ?_, flushEnded_commitFailed _ _ _ _⟩
      · cases landed <;> rfl
      · cases landed <;> rfl
  | committed =>
      let report := p.health.commitSucceeded (elapsed startedAt c.nano) c.first c.second
      refine ⟨_, rfl, rfl, rfl, _, w.output ++ healthLines report.2, c.third, rfl, ?_, ?_⟩
      · rw [← hflushed]
      · exact (List.append_assoc _ _ _).symm

/-- `append` as steps: the process ends, or the offsets are what is left to commit. -/
theorem append_run (h : AtPhase flushed batch resume w (.dataFile startedAt))
    (env : FlushEnvironment) :
    ∃ actions w' appended, (system s).run w actions = some w' ∧
      IcebergWriter.append s.hash w.table batch.bars env.pathAt env.ingestedAt env.file env.commit =
        (w'.table, appended) ∧ w'.broker.committed = w.broker.committed ∧
      match appended with
      | .error failure => FlushEnded flushed batch w' (.error failure)
      | .ok inserted => AtPhase flushed batch resume w' (.offsetCommit startedAt inserted) := by
  let c : Readings := ⟨env.pathAt, env.ingestedAt, env.ingestedAt, startedAt⟩
  unfold IcebergWriter.append
  cases hempty : batch.bars.isEmpty with
  | true =>
      obtain ⟨w', hstep, hdurable, hphase⟩ := nothingToWrite_run s h hempty env.file c
      obtain ⟨htable, hcommitted⟩ := Durable.mk.inj hdurable
      exact ⟨[.writeDataFile env.file c], w', .ok 0, by simp [hstep], by simp [htable], hcommitted,
        hphase⟩
  | false =>
      obtain ⟨w₁, result, hfile, hwritten, hbroker, hresult⟩ := dataFile_run s h hempty env.file c
      have hwritten' : IcebergWriter.writeDataFile s.hash w.table batch.bars env.pathAt
          env.ingestedAt env.file = (w₁.table, result) := hwritten
      simp only [Bool.false_eq_true, if_false, hwritten']
      cases result with
      | error failure =>
          exact ⟨[.writeDataFile env.file c], w₁, .error failure, by simp [hfile], rfl,
            congrArg Broker.committed hbroker, hresult⟩
      | ok file =>
          obtain ⟨w₂, failure?, hcommit, happended, hbroker', hend⟩ :=
            tableCommit_run s hresult env.commit c
          have hrun : (system s).run w [.writeDataFile env.file c, .commitTable env.commit c] =
              some w₂ := by
            simp [hfile, hcommit]
          have hcommitted : w₂.broker.committed = w.broker.committed := by rw [hbroker', hbroker]
          simp only [happended]
          cases failure? with
          | some failure => exact ⟨_, w₂, .error failure, hrun, rfl, hcommitted, hend⟩
          | none => exact ⟨_, w₂, .ok batch.bars.length, hrun, rfl, hcommitted, hend⟩

/-- `flush` is a run of the loader, whatever the environment does. -/
theorem flush_run (h : AtPhase flushed batch resume w .announce) (env : FlushEnvironment)
    (c : Readings) :
    ∃ actions w', (system s).run w actions = some w' ∧
      w'.durable = (flush s.hash w.durable batch env).1 ∧
      FlushEnded flushed batch w' (flush s.hash w.durable batch env).2 := by
  obtain ⟨w₁, hannounce, hdurable, hphase⟩ := announce_run s h c
  obtain ⟨actions, w₂, appended, hrun, happend, hcommitted, hend⟩ := append_run s hphase env
  obtain ⟨htable₁, hcommitted₁⟩ := Durable.mk.inj hdurable
  rw [htable₁] at happend
  have hbefore : (system s).run w (.announce c :: actions) = some w₂ := by simp [hannounce, hrun]
  unfold flush
  simp only [World.durable, happend]
  cases appended with
  | error failure => exact ⟨_, w₂, hbefore, by rw [hcommitted, hcommitted₁], hend⟩
  | ok inserted =>
      obtain ⟨w₃, hstep, htable, hoffsets⟩ := offsetCommit_run s hend env.offsets c
      have hlast : (system s).run w (.announce c :: actions ++ [.commitOffsets env.offsets c]) =
          some w₃ := by
        rw [Transition.System.run_append, hbefore]
        simp [hstep]
      refine ⟨_, w₃, hlast, ?_⟩
      rw [hcommitted, hcommitted₁] at hoffsets
      cases houtcome : offsetOutcome batch env.offsets with
      | failed cause landed =>
          rw [houtcome] at hoffsets
          exact ⟨by simp [htable, hoffsets.1], hoffsets.2⟩
      | committed =>
          rw [houtcome] at hoffsets
          exact ⟨by simp [htable, hoffsets.1], hoffsets.2⟩

end Run

end Main

end Lakehouse.Loader
