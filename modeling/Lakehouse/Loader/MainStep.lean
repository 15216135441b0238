/-
What one step of the loader's world can do.

`Main.Step` and `Main.ProcessStep` list the outcomes of `Main.step` as a
relation, one constructor per outcome with its guards and the whole next world.
Invariants and the refinement are proved by cases on them.

* `Main.step_cases` — every enabled action has one of these outcomes.
* `Main.system_reachable_induction`, `Main.process_induction` — induction over
  the reachable worlds, and over the processes that run in them.
-/

import Lakehouse.Loader.Main

namespace Lakehouse.Loader

namespace Main

variable {Payload Bar : Type}

/-- The process a successful start begins. -/
def fresh (broker : Broker Payload) (health : LoaderHealthReporter) (batch : BoundedBatch Bar) :
    Process Bar :=
  { running := true, assignment := [], position := broker.startOffset, batch := batch,
    batchWindow := BatchWindow.new, health := health, pc := .loopHead,
    resumedFrom := broker.startOffset, polled := [], flushed := [] }

/-- The process after it has received and buffered a record. -/
def received (p : Process Bar) (tp : TopicPartition) (offset : Nat) (bars : List Bar)
    (c : Readings) : Process Bar :=
  { p with
    position := Function.update p.position tp (offset + 1)
    health := p.health.recordInput c.first
    batchWindow :=
      if p.batch.isEmpty && !bars.isEmpty then p.batchWindow.openAt c.nano else p.batchWindow
    batch := (p.batch.add ⟨tp.topic, tp.partition, offset⟩ bars).1
    polled := p.polled ++ [⟨⟨tp.topic, tp.partition, offset⟩, bars⟩]
    pc := afterAdd (p.batch.add ⟨tp.topic, tp.partition, offset⟩ bars).2 }

/-- The process after a flush has succeeded. -/
def flushDone (p : Process Bar) (batch : Batch Bar) (resume : Resume Bar)
    (health : LoaderHealthReporter) : Process Bar :=
  { p with
    health := health
    flushed := p.flushed ++ batch.entries
    pc := (afterFlush p.batchWindow resume).1
    batchWindow := (afterFlush p.batchWindow resume).2 }

/-- The outcomes of a step of the running process `p`. -/
inductive ProcessStep (s : Settings Payload Bar) (w : World Payload Bar) (p : Process Bar) :
    Action Payload → World Payload Bar → Prop where
  | assign : p.pc = .polling → p.assignment = [] →
      ProcessStep s w p .assign (w.put { p with
        assignment := w.broker.partitions
        position := w.broker.startOffset
        resumedFrom := w.broker.startOffset } [])
  | pollNothing {c} : p.pc = .polling →
      ProcessStep s w p (.poll none c) (w.put { p with pc := .ageCheck } [])
  | decodeFailed {tp record errorClass c lines} : p.pc = .polling →
      tp ∈ p.assignment → (w.broker.log tp).nextFrom (p.position tp) = some record →
      s.decodeFrame record.value = .error errorClass →
      ProcessStep s w p (.poll (some tp) c) (w.exit lines)
  | received {tp record bars c} : p.pc = .polling →
      tp ∈ p.assignment → (w.broker.log tp).nextFrom (p.position tp) = some record →
      s.decodeFrame record.value = .ok bars →
      ProcessStep s w p (.poll (some tp) c) (w.put (received p tp record.offset bars c) [])
  | pollFailed {errorClass c lines} : p.pc = .polling →
      ProcessStep s w p (.pollFailed errorClass c) (w.exit lines)
  | announced {batch resume c} : p.pc = .flushing batch resume .announce →
      ProcessStep s w p (.announce c) (w.put
        { p with
          health := (p.health.commitStarted batch c.first).1
          pc := .flushing batch resume (.dataFile c.nano) }
        (healthLines (p.health.commitStarted batch c.first).2))
  | nothingToWrite {batch resume startedAt outcome c} :
      p.pc = .flushing batch resume (.dataFile startedAt) → batch.entries = [] →
      ProcessStep s w p (.writeDataFile outcome c)
        (w.put { p with pc := .flushing batch resume (.offsetCommit startedAt 0) } [])
  | dataFileFailed {batch resume startedAt outcome c table failure} :
      p.pc = .flushing batch resume (.dataFile startedAt) → batch.entries ≠ [] →
      IcebergWriter.writeDataFile s.hash w.table batch.bars c.first c.second outcome =
        (table, .error failure) →
      ProcessStep s w p (.writeDataFile outcome c)
        (commitFailed (w.withTable table) p c failure startedAt)
  | dataFileWritten {batch resume startedAt outcome c table file} :
      p.pc = .flushing batch resume (.dataFile startedAt) → batch.entries ≠ [] →
      IcebergWriter.writeDataFile s.hash w.table batch.bars c.first c.second outcome =
        (table, .ok file) →
      ProcessStep s w p (.writeDataFile outcome c) ((w.withTable table).put
        { p with pc := .flushing batch resume (.tableCommit startedAt file) } [])
  | tableCommitFailed {batch resume startedAt file outcome c table failure} :
      p.pc = .flushing batch resume (.tableCommit startedAt file) →
      IcebergWriter.commitAppend w.table file outcome = (table, some failure) →
      ProcessStep s w p (.commitTable outcome c)
        (commitFailed (w.withTable table) p c failure startedAt)
  | tableCommitted {batch resume startedAt file outcome c table} :
      p.pc = .flushing batch resume (.tableCommit startedAt file) →
      IcebergWriter.commitAppend w.table file outcome = (table, none) →
      ProcessStep s w p (.commitTable outcome c) ((w.withTable table).put
        { p with pc := .flushing batch resume (.offsetCommit startedAt batch.bars.length) } [])
  | offsetCommitFailed {batch resume startedAt inserted cause landed c} :
      p.pc = .flushing batch resume (.offsetCommit startedAt inserted) →
      flushOffsets batch.entries ≠ [] →
      ProcessStep s w p (.commitOffsets (.failed cause landed) c)
        (commitFailed (if landed then w.commitOffsets (flushOffsets batch.entries) else w) p c
          (.offsetCommitFailed cause) startedAt)
  | offsetsCommitted {batch resume startedAt inserted outcome c health payloads} :
      p.pc = .flushing batch resume (.offsetCommit startedAt inserted) →
      outcome = .committed ∨ flushOffsets batch.entries = [] →
      p.health.commitSucceeded (elapsed startedAt c.nano) c.first c.second = (health, payloads) →
      ProcessStep s w p (.commitOffsets outcome c)
        ((w.commitOffsets (flushOffsets batch.entries)).put (flushDone p batch resume health)
          (healthLines payloads ++ [.committed c.third batch.entries.length inserted]))
  | windowReset {c} : p.pc = .windowReset →
      ProcessStep s w p (.resetWindow c) (w.put
        { p with batchWindow := BatchWindow.reset (!p.batch.isEmpty) c.nano, pc := .ageCheck } [])
  | aged {c batch drained} : p.pc = .ageCheck →
      p.batch.isEmpty = false → p.batchWindow.expired s.maxWait c.nano = true →
      p.batch.drain = some (batch, drained) →
      ProcessStep s w p (.ageCheck c)
        (w.put { p with batch := batch, pc := .flushing drained .aged .announce } [])
  | notAged {c} : p.pc = .ageCheck →
      p.batch.isEmpty = true ∨ p.batchWindow.expired s.maxWait c.nano = false →
      ProcessStep s w p (.ageCheck c) (w.put { p with pc := .heartbeat } [])
  | heartbeat {failure c answer} : p.pc = .heartbeat →
      answer = (match failure with
        | some errorClass => .error errorClass
        | none => .ok (sample w p)) →
      ProcessStep s w p (.heartbeat failure c) (w.put
        { p with
          health := (p.health.maybeHeartbeat answer p.batch c.first c.second c.third).1
          pc := .loopHead }
        (healthLines (p.health.maybeHeartbeat answer p.batch c.first c.second c.third).2))
  | enteredLoop : p.pc = .loopHead → p.running = true →
      ProcessStep s w p .loopTest (w.put { p with pc := .polling } [])
  | leftLoop : p.pc = .loopHead → p.running = false →
      p.batch.isEmpty = true → ProcessStep s w p .loopTest (w.put { p with pc := .closing } [])
  | finalFlush {batch drained} : p.pc = .loopHead → p.running = false →
      p.batch.drain = some (batch, drained) →
      ProcessStep s w p .loopTest
        (w.put { p with batch := batch, pc := .flushing drained .closing .announce } [])
  | closed {failure c lines} : p.pc = .closing →
      ProcessStep s w p (.closeResources failure c) (w.exit lines)
  | stopped : ProcessStep s w p .stop (stop w p)
  | crashed {landed} : ProcessStep s w p (.crash landed) (crash w p landed)

inductive Step (s : Settings Payload Bar) (w : World Payload Bar) :
    Action Payload → World Payload Bar → Prop where
  | produce {tp offset value} (h : (w.broker.log tp).endOffset ≤ offset) :
      Step s w (.produce tp offset value) { w with broker := w.broker.produce tp offset value h }
  | startRefused {failure c} : w.loader = none → Step s w (.start failure c) w
  | startFailed {failure c lines} : w.loader = none → Step s w (.start failure c) (w.exit lines)
  | started {failure c health payloads batch} : w.loader = none →
      LoaderHealthReporter.new s.topic s.heartbeatInterval s.stallThreshold c.first = .ok health →
      BoundedBatch.new s.maxRecords = .ok batch →
      payloads = (health.starting c.second c.third).2 →
      Step s w (.start failure c)
        (w.put (fresh w.broker (health.starting c.second c.third).1 batch) (healthLines payloads))
  | process {p a w'} : w.loader = some p → ProcessStep s w p a w' → Step s w a w'

/-! ### Every step is one of these -/

variable {s : Settings Payload Bar} {w w' : World Payload Bar} {p : Process Bar} {c : Readings}

theorem start_cases {failure : Option String} (h : start s w c failure = some w') :
    Step s w (.start failure c) w' := by
  unfold start at h
  split at h
  · simp at h
  rename_i hnone
  have hnone : w.loader = none := by simpa using hnone
  split at h
  · cases h
    exact .startRefused hnone
  split at h
  · cases h
    exact .startRefused hnone
  rename_i health hhealth
  dsimp only at h
  split at h
  · cases h
    exact .startFailed hnone
  · cases h
    exact .startFailed hnone
  · rename_i batch hbatch
    cases h
    exact .started hnone hhealth hbatch rfl

theorem poll_cases {from? : Option TopicPartition}
    (h : poll s w p c from? = some w') : ProcessStep s w p (.poll from? c) w' := by
  unfold poll at h
  split at h
  · rename_i hpc
    cases from? with
    | none =>
        cases h
        exact .pollNothing hpc
    | some tp =>
        dsimp only at h
        split at h
        · rename_i hassigned
          obtain ⟨record, hnext, rfl⟩ := Option.map_eq_some_iff.mp h
          unfold receive
          split
          · rename_i errorClass hdecode
            exact .decodeFailed hpc hassigned hnext hdecode
          · rename_i bars hdecode
            exact .received hpc hassigned hnext hdecode
        · simp at h
  · simp at h

theorem writeDataFile_cases {outcome : FileOutcome}
    (h : writeDataFile s w p c outcome = some w') : ProcessStep s w p (.writeDataFile outcome c) w' := by
  unfold writeDataFile at h
  split at h
  · rename_i batch resume startedAt hpc
    split at h
    · rename_i hempty
      cases h
      exact .nothingToWrite hpc (by simpa [Batch.bars] using hempty)
    · rename_i hne
      have hne : batch.entries ≠ [] := by simpa [Batch.bars] using hne
      dsimp only at h
      split at h
      · rename_i failure hresult
        cases h
        exact .dataFileFailed hpc hne (Prod.ext rfl hresult)
      · rename_i file hresult
        cases h
        exact .dataFileWritten hpc hne (Prod.ext rfl hresult)
  · simp at h

theorem commitTable_cases {outcome : CommitOutcome}
    (h : commitTable w p c outcome = some w') : ProcessStep s w p (.commitTable outcome c) w' := by
  unfold commitTable at h
  split at h
  · rename_i batch resume startedAt file hpc
    dsimp only at h
    split at h
    · rename_i failure hresult
      cases h
      exact .tableCommitFailed hpc (Prod.ext rfl hresult)
    · rename_i hresult
      cases h
      exact .tableCommitted hpc (Prod.ext rfl hresult)
  · simp at h

theorem commitOffsets_cases {outcome : OffsetOutcome}
    (h : commitOffsets w p c outcome = some w') : ProcessStep s w p (.commitOffsets outcome c) w' := by
  unfold commitOffsets at h
  split at h
  · rename_i batch resume startedAt inserted hpc
    dsimp only at h
    split at h
    · rename_i cause landed houtcome
      cases h
      split at houtcome
      · simp at houtcome
      · rename_i hne
        subst houtcome
        exact .offsetCommitFailed hpc (by simpa using hne)
    · rename_i houtcome
      cases h
      refine .offsetsCommitted hpc ?_ rfl
      split at houtcome
      · rename_i hempty
        exact Or.inr (by simpa using hempty)
      · exact Or.inl houtcome
  · simp at h

theorem ageCheck_cases (h : ageCheck s w p c = some w') :
    ProcessStep s w p (.ageCheck c) w' := by
  unfold ageCheck at h
  split at h
  · rename_i hpc
    split at h
    · rename_i hdue
      obtain ⟨hne, hexpired⟩ := Bool.and_eq_true_iff.mp hdue
      obtain ⟨⟨batch, drained⟩, hdrain, rfl⟩ := Option.map_eq_some_iff.mp h
      exact .aged hpc (by simpa using hne) hexpired hdrain
    · rename_i hdue
      cases h
      refine .notAged hpc ?_
      cases hempty : p.batch.isEmpty with
      | true => exact Or.inl rfl
      | false => exact Or.inr (by simpa [hempty] using hdue)
  · simp at h

theorem loopTest_cases (h : loopTest w p = some w') :
    ProcessStep s w p .loopTest w' := by
  unfold loopTest at h
  split at h
  · rename_i hpc
    split at h
    · rename_i hrunning
      cases h
      exact .enteredLoop hpc hrunning
    rename_i hstopped
    have hstopped : p.running = false := by simpa using hstopped
    split at h
    · rename_i hempty
      cases h
      exact .leftLoop hpc hstopped hempty
    · obtain ⟨⟨batch, drained⟩, hdrain, rfl⟩ := Option.map_eq_some_iff.mp h
      exact .finalFlush hpc hstopped hdrain
  · simp at h

theorem processStep_cases {a : Action Payload}
    (h : processStep s w p a = some w') : ProcessStep s w p a w' := by
  cases a with
  | produce tp offset value => simp [processStep] at h
  | start failure c => simp [processStep] at h
  | poll from? c => exact poll_cases h
  | writeDataFile outcome c => exact writeDataFile_cases h
  | commitTable outcome c => exact commitTable_cases h
  | commitOffsets outcome c => exact commitOffsets_cases h
  | ageCheck c => exact ageCheck_cases h
  | loopTest => exact loopTest_cases h
  | assign =>
      simp only [processStep, assign] at h
      split at h
      · rename_i hpc
        split at h
        · rename_i hnone
          cases h
          exact .assign hpc hnone
        · simp at h
      · simp at h
  | pollFailed errorClass c =>
      simp only [processStep, pollFailed] at h
      split at h
      · rename_i hpc
        cases h
        exact .pollFailed hpc
      · simp at h
  | announce c =>
      simp only [processStep, announce] at h
      split at h
      · rename_i batch resume hpc
        cases h
        exact .announced hpc
      · simp at h
  | resetWindow c =>
      simp only [processStep, resetWindow] at h
      split at h
      · rename_i hpc
        cases h
        exact .windowReset hpc
      · simp at h
  | heartbeat failure c =>
      simp only [processStep, heartbeat] at h
      split at h
      · rename_i hpc
        cases h
        exact .heartbeat hpc rfl
      · simp at h
  | closeResources failure c =>
      simp only [processStep, closeResources] at h
      split at h
      · rename_i hpc
        cases h
        exact .closed hpc
      · simp at h
  | stop =>
      cases h
      exact .stopped
  | crash landed =>
      cases h
      exact .crashed

theorem step_cases {a : Action Payload} (h : step s w a = some w') : Step s w a w' := by
  unfold step at h
  split at h
  · unfold produce at h
    split at h
    · cases h
      exact .produce _
    · simp at h
  · exact start_cases h
  · obtain ⟨p, hp, h⟩ := Option.bind_eq_some_iff.mp h
    exact .process hp (processStep_cases h)

/-- Induction over the reachable worlds by the outcome of the last step. -/
theorem system_reachable_induction {P : World Payload Bar → Prop}
    (init : ∀ w, Initial w → P w)
    (step : ∀ w a w', (system s).Reachable w → P w → Step s w a w' → P w')
    (h : (system s).Reachable w) : P w := by
  induction h with
  | init hinit => exact init _ hinit
  | step hprev hstep ih => exact step _ _ _ hprev ih (step_cases hstep)

/-- A property of processes that holds of a fresh process and is kept by every
step that leaves a process running holds of every running process. -/
theorem process_induction {P : Process Bar → Prop}
    (hfresh : ∀ (broker : Broker Payload) health (batch : BoundedBatch Bar) (c : Readings),
      broker.partitions.Nodup →
      LoaderHealthReporter.new s.topic s.heartbeatInterval s.stallThreshold c.first = .ok health →
      BoundedBatch.new s.maxRecords = .ok batch →
      P (fresh broker (health.starting c.second c.third).1 batch))
    (hstep : ∀ {w : World Payload Bar} {p a w' p'}, P p → ProcessStep s w p a w' →
      w'.loader = some p' → P p')
    (h : (system s).Reachable w) (hp : w.loader = some p) : P p := by
  refine system_reachable_induction (P := fun w => ∀ p, w.loader = some p → P p) ?_ ?_ h p hp
  · intro w hinit p hp
    simp [hinit.2.2.2] at hp
  · intro w a w' _ ih hs p' hp'
    cases hs with
    | produce => exact ih p' hp'
    | startRefused => exact ih p' hp'
    | startFailed => cases hp'
    | started _ hhealth hbatch =>
        cases hp'
        exact hfresh _ _ _ _ w.broker.nodup hhealth hbatch
    | process hp hs => exact hstep (ih _ hp) hs hp'

end Main

end Lakehouse.Loader
