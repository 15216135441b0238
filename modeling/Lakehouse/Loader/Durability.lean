/-
The loader delivers at least once.

`World.delivery` forgets the program counter, the clocks and the output: what
is left is a `Delivery`. Every step of the loader is zero or more steps of that
machine (`step_refines`), so every reachable world is sound.

* `fileMatches_of_reachable` — the data file of a pending table commit holds
  the batch being flushed.
* `delivery_sound` — the invariant of `Delivery` in every reachable world.
* `acknowledged_records_are_stored` — after any interleaving of polls, flushes,
  failures, crashes and restarts, every record below a committed offset decodes
  and its bars are in the table.
-/

import Lakehouse.Loader.Delivery
import Lakehouse.Loader.MainStep

namespace Lakehouse.Loader

variable {Payload Bar : Type}

/-! ### The delivery machine of a world -/

/-- The entries of the batches still to be flushed after this one. -/
def Resume.entries : Resume Bar → List (Entry Bar)
  | .fullBatches rest => rest.flatMap Batch.entries
  | .aged => []
  | .closing => []

/-- The entries in the table whose offsets are not committed yet. -/
def Pc.written : Pc Bar → List (Entry Bar)
  | .flushing batch _ (.offsetCommit _ _) => batch.entries
  | _ => []

/-- The entries taken out of the buffer that are not in the table yet. -/
def Pc.unwritten : Pc Bar → List (Entry Bar)
  | .flushing _ resume (.offsetCommit _ _) => resume.entries
  | .flushing batch resume _ => batch.entries ++ resume.entries
  | _ => []

def Process.session (p : Process Bar) : Session Bar where
  assignment := p.assignment
  resumedFrom := p.resumedFrom
  position := p.position
  polled := p.polled
  flushed := p.flushed
  written := p.pc.written
  waiting := p.pc.unwritten ++ p.batch.pending

def World.delivery (w : World Payload Bar) : Delivery Payload Bar :=
  ⟨w.broker, w.table.bars, w.loader.map Process.session⟩

namespace Main

variable {s : Settings Payload Bar} {w w' : World Payload Bar} {p p' : Process Bar}

@[simp] theorem written_afterAdd (full : List (Batch Bar)) : (afterAdd full).written = [] := by
  cases full <;> rfl

@[simp] theorem unwritten_afterAdd (full : List (Batch Bar)) :
    (afterAdd full).unwritten = full.flatMap Batch.entries := by
  cases full <;> rfl

@[simp] theorem written_afterFlush (window : BatchWindow) (resume : Resume Bar) :
    (afterFlush window resume).1.written = [] := by
  unfold afterFlush
  split <;> rfl

@[simp] theorem unwritten_afterFlush (window : BatchWindow) (resume : Resume Bar) :
    (afterFlush window resume).1.unwritten = resume.entries := by
  unfold afterFlush
  split <;> rfl

/-- The data file of a pending table commit holds the batch being flushed. -/
def FileMatches (p : Process Bar) : Prop :=
  ∀ batch resume startedAt file, p.pc = .flushing batch resume (.tableCommit startedAt file) →
    file.rows.map Row.bar = batch.bars

theorem fileMatches_of_reachable (h : (system s).Reachable w) (hp : w.loader = some p) :
    FileMatches p := by
  refine process_induction (P := FileMatches) ?_ ?_ h hp
  · intro broker health batch c _ _ _
    simp [FileMatches, fresh]
  · intro w p a w' p' ih hs hp'
    cases hs with
    | dataFileWritten hpc hne hwrite =>
        cases hp'
        intro batch resume startedAt file heq
        cases heq
        exact (IcebergWriter.rows_of_writeDataFile (congrArg Prod.snd hwrite)).1
    | assign hpc =>
        cases hp'
        intro batch resume startedAt file heq
        simp [hpc] at heq
    | received =>
        cases hp'
        intro batch resume startedAt file heq
        simp only [received, afterAdd] at heq
        split at heq <;> simp at heq
    | offsetsCommitted =>
        cases hp'
        intro batch resume startedAt file heq
        simp only [flushDone, afterFlush] at heq
        split at heq <;> simp at heq
    | stopped =>
        cases hp'
        exact ih
    | _ => cases hp' <;> intro batch resume startedAt file heq <;> simp at heq

/-! ### Refinement -/

open Relation (ReflTransGen)

theorem session_received (hpc : p.pc = .polling) (tp : TopicPartition) (offset : Nat)
    (bars : List Bar) (c : Readings) :
    (received p tp offset bars c).session = { p.session with
      position := Function.update p.position tp (offset + 1)
      polled := p.polled ++ [⟨⟨tp.topic, tp.partition, offset⟩, bars⟩]
      waiting := p.session.waiting ++ sourceEntries ⟨tp.topic, tp.partition, offset⟩ bars } := by
  have hidle : p.pc.written = [] ∧ p.pc.unwritten = [] := by simp [hpc, Pc.written, Pc.unwritten]
  simp [Process.session, received, hidle.1, hidle.2, BoundedBatch.add_entries]

theorem session_drained {batch : BoundedBatch Bar} {drained : Batch Bar} {resume : Resume Bar}
    (hresume : resume.entries = []) (hdrain : p.batch.drain = some (batch, drained))
    (hidle : p.pc.written = [] ∧ p.pc.unwritten = []) :
    Process.session { p with batch := batch, pc := .flushing drained resume .announce } =
      p.session := by
  obtain ⟨-, hentries, hpending, -⟩ := BoundedBatch.drain_eq_some hdrain
  have hdrained : (Pc.flushing drained resume .announce).written = [] ∧
      (Pc.flushing drained resume .announce).unwritten = p.batch.pending := by
    simp [Pc.written, Pc.unwritten, hentries, hresume]
  simp [Process.session, hidle.1, hidle.2, hdrained.1, hdrained.2, hpending]

theorem session_flushDone {batch : Batch Bar} {resume : Resume Bar} {startedAt : Int}
    {inserted : Nat} (hpc : p.pc = .flushing batch resume (.offsetCommit startedAt inserted))
    (health : LoaderHealthReporter) :
    (flushDone p batch resume health).session =
      { p.session with flushed := p.flushed ++ batch.entries, written := [] } := by
  have hpending : p.pc.unwritten = resume.entries := by simp [hpc, Pc.unwritten]
  simp [Process.session, flushDone, hpending]

theorem delivery_put_eq (p : Process Bar) (lines : List Line) :
    (w.put p lines).delivery = ⟨w.broker, w.table.bars, some p.session⟩ := rfl

/-- A process that goes on with the same session is a stutter. -/
theorem delivery_put (hp : w.loader = some p) (hsession : p'.session = p.session)
    (lines : List Line) : (w.put p' lines).delivery = w.delivery := by
  simp [World.delivery, World.put, hp, hsession]

theorem exit_refines (lines : List Line) :
    ReflTransGen (Delivery.Step s.decodeFrame) w.delivery (w.exit lines).delivery :=
  .single .stop

/-- A pending table commit that takes effect is a `write`. -/
theorem append_refines (hp : w.loader = some p) {batch : Batch Bar} {resume : Resume Bar}
    {startedAt : Int} {file : DataFile Bar}
    (hpc : p.pc = .flushing batch resume (.tableCommit startedAt file))
    (hfile : FileMatches p) (inserted : Nat) (lines : List Line) :
    Delivery.Step s.decodeFrame w.delivery
      ((w.withTable (IcebergWriter.appendFile w.table file)).put
        { p with pc := .flushing batch resume (.offsetCommit startedAt inserted) } lines).delivery := by
  have hwaiting : p.session.waiting = batch.entries ++ (resume.entries ++ p.batch.pending) := by
    simp [Process.session, hpc, Pc.unwritten]
  have hstep : Delivery.Step s.decodeFrame w.delivery _ := .write (s := p.session)
    (by simp [World.delivery, hp]) (by simp [Process.session, hpc, Pc.written]) hwaiting
  simpa [World.delivery, World.put, World.withTable, Process.session, Pc.written, Pc.unwritten,
    hfile batch resume startedAt file hpc, Batch.bars] using hstep

/-- A pending offset commit that takes effect is an `acknowledge`. -/
theorem commit_refines (hp : w.loader = some p) {batch : Batch Bar} {resume : Resume Bar}
    {startedAt : Int} {inserted : Nat}
    (hpc : p.pc = .flushing batch resume (.offsetCommit startedAt inserted))
    (health : LoaderHealthReporter) (lines : List Line) :
    Delivery.Step s.decodeFrame w.delivery
      ((w.commitOffsets (flushOffsets batch.entries)).put (flushDone p batch resume health)
        lines).delivery := by
  have hstep : Delivery.Step s.decodeFrame w.delivery _ := .acknowledge
    (s := p.session) (by simp [World.delivery, hp])
  have hwritten : p.session.written = batch.entries := by
    simp [Process.session, hpc, Pc.written]
  rw [hwritten] at hstep
  rw [delivery_put_eq, session_flushDone hpc]
  exact hstep

/-- A process dies with its pending request applied or not. -/
theorem landed_refines (hp : w.loader = some p) (hfile : FileMatches p) (lines : List Line) :
    ReflTransGen (Delivery.Step s.decodeFrame) w.delivery ((land w p).exit lines).delivery := by
  unfold land
  split
  · rename_i batch resume startedAt file hpc
    exact .tail (.single (append_refines hp hpc hfile 0 lines)) .stop
  · rename_i batch resume startedAt inserted hpc
    exact .tail (.single (commit_refines hp hpc p.health lines)) .stop
  · exact exit_refines lines

/-- Every step of a process is some steps of the delivery machine. -/
theorem processStep_refines (hp : w.loader = some p) (hfile : FileMatches p)
    {a : Action Payload} (h : ProcessStep s w p a w') :
    ReflTransGen (Delivery.Step s.decodeFrame) w.delivery w'.delivery := by
  cases h with
  | assign hpc hnone =>
      have hstep : Delivery.Step s.decodeFrame w.delivery _ := .assign
        (s := p.session) w.broker.partitions (by simp [World.delivery, hp]) hnone
      exact .single hstep
  | @received tp record bars c hpc htp hnext hdecode =>
      have hstep : Delivery.Step s.decodeFrame w.delivery _ := .deliver
        (s := p.session) (by simp [World.delivery, hp]) htp hnext hdecode
      rw [delivery_put_eq, session_received hpc]
      exact .single hstep
  | pollNothing hpc =>
      rw [delivery_put hp (by simp [Process.session, hpc, Pc.written, Pc.unwritten])]
  | decodeFailed => exact exit_refines _
  | pollFailed => exact exit_refines _
  | announced hpc =>
      rw [delivery_put hp (by simp [Process.session, hpc, Pc.written, Pc.unwritten])]
  | nothingToWrite hpc hempty =>
      rw [delivery_put hp (by simp [Process.session, hpc, Pc.written, Pc.unwritten, hempty])]
  | @dataFileFailed batch resume startedAt outcome c table failure hpc hne hwrite =>
      have hbars : table.bars = w.table.bars := by
        have h := @IcebergWriter.bars_writeDataFile Bar s.hash w.table batch.bars c.first c.second
          outcome
        rwa [hwrite] at h
      have hsame : (commitFailed (w.withTable table) p c failure startedAt).delivery =
          (w.exit []).delivery := by
        simp [commitFailed, World.delivery, World.exit, World.withTable, hbars]
      rw [hsame]
      exact exit_refines []
  | @dataFileWritten batch resume startedAt outcome c table file hpc hne hwrite =>
      have hbars : table.bars = w.table.bars := by
        have h := @IcebergWriter.bars_writeDataFile Bar s.hash w.table batch.bars c.first c.second
          outcome
        rwa [hwrite] at h
      have hsame : ((w.withTable table).put
          { p with pc := .flushing batch resume (.tableCommit startedAt file) } []).delivery =
            w.delivery := by
        simp [World.delivery, World.put, World.withTable, hbars, hp, Process.session, hpc,
          Pc.written, Pc.unwritten]
      rw [hsame]
  | @tableCommitFailed batch resume startedAt file outcome c table failure hpc hcommit =>
      have htable := IcebergWriter.commitAppend_cases w.table file outcome
      rw [hcommit] at htable
      rcases htable with rfl | ⟨rfl, -⟩
      · exact .tail (.single (append_refines hp hpc hfile 0 [])) .stop
      · exact exit_refines _
  | @tableCommitted batch resume startedAt file outcome c table hpc hcommit =>
      have htable := IcebergWriter.commitAppend_cases w.table file outcome
      rw [hcommit] at htable
      rcases htable with rfl | ⟨-, habsurd⟩
      · exact .single (append_refines hp hpc hfile _ [])
      · exact absurd rfl habsurd
  | @offsetCommitFailed batch resume startedAt inserted cause landed c hpc hne =>
      cases landed with
      | false => exact exit_refines _
      | true => exact .tail (.single (commit_refines hp hpc p.health [])) .stop
  | offsetsCommitted hpc => exact .single (commit_refines hp hpc _ _)
  | windowReset hpc =>
      rw [delivery_put hp (by simp [Process.session, hpc, Pc.written, Pc.unwritten])]
  | aged hpc hne hexpired hdrain =>
      rw [delivery_put hp (session_drained rfl hdrain (by simp [hpc, Pc.written, Pc.unwritten]))]
  | notAged hpc =>
      rw [delivery_put hp (by simp [Process.session, hpc, Pc.written, Pc.unwritten])]
  | heartbeat hpc =>
      rw [delivery_put hp (by simp [Process.session, hpc, Pc.written, Pc.unwritten])]
  | enteredLoop hpc =>
      rw [delivery_put hp (by simp [Process.session, hpc, Pc.written, Pc.unwritten])]
  | leftLoop hpc =>
      rw [delivery_put hp (by simp [Process.session, hpc, Pc.written, Pc.unwritten])]
  | finalFlush hpc hstopped hdrain =>
      rw [delivery_put hp (session_drained rfl hdrain (by simp [hpc, Pc.written, Pc.unwritten]))]
  | closed => exact exit_refines _
  | stopped =>
      have hstutter : (stop w p).delivery = w.delivery := delivery_put hp rfl []
      rw [hstutter]
  | @crashed landed =>
      cases landed with
      | false => exact exit_refines _
      | true => exact landed_refines hp hfile []

/-- Every step of the loader's world is some steps of the delivery machine. -/
theorem step_refines (hfile : ∀ p, w.loader = some p → FileMatches p) {a : Action Payload}
    (h : Step s w a w') :
    ReflTransGen (Delivery.Step s.decodeFrame) w.delivery w'.delivery := by
  cases h with
  | produce hend => exact .single (.produce hend)
  | startRefused => exact .refl
  | startFailed => exact exit_refines _
  | @started failure c health payloads batch hnone hhealth hbatch =>
      have hstep : Delivery.Step s.decodeFrame w.delivery _ := .begin
        (by simp [World.delivery, hnone])
      have hfresh : (fresh w.broker (health.starting c.second c.third).1 batch).session =
          Session.fresh w.broker [] := by
        simp [Process.session, fresh, Session.fresh, Pc.written, Pc.unwritten,
          (BoundedBatch.new_eq_ok hbatch).1]
      rw [delivery_put_eq, hfresh]
      exact .single hstep
  | process hp h => exact processStep_refines hp (hfile _ hp) h

/-- Every reachable world is sound as a delivery machine. -/
theorem delivery_sound (h : (system s).Reachable w) : w.delivery.Sound s.decodeFrame := by
  refine system_reachable_induction (P := fun w => w.delivery.Sound s.decodeFrame) ?_ ?_ h
  · intro w hinit
    exact Delivery.sound_of_initial (by simp [World.delivery, hinit.2.2.2]) hinit.1
  · intro w a w' hreach ih hstep
    exact ih.of_reaches (step_refines (fun p hp => fileMatches_of_reachable hreach hp) hstep)

/-- The session of a running process is sound. -/
theorem session_sound (h : (system s).Reachable w) (hp : w.loader = some p) :
    p.session.Sound s.decodeFrame w.broker w.table.bars := by
  have hsound := delivery_sound h
  have hsession : w.delivery.session = some p.session := by simp [World.delivery, hp]
  simp only [Delivery.Sound, hsession] at hsound
  exact hsound

/-- The records of `tp` below the group's committed offset. -/
def acknowledged (broker : Broker Payload) (tp : TopicPartition) : List (ConsumerRecord Payload) :=
  match broker.committed tp with
  | none => []
  | some offset => (broker.log tp).records.filter fun r => decide (r.offset < offset)

/-- Without a committed offset the start is the beginning of the log, and
nothing lies below either. -/
theorem acknowledged_eq_slice (broker : Broker Payload) (tp : TopicPartition) :
    acknowledged broker tp =
      (broker.log tp).slice (broker.log tp).beginning (broker.startOffset tp) := by
  unfold acknowledged Broker.startOffset
  cases broker.committed tp with
  | none => simp
  | some offset =>
      apply List.filter_congr
      intro r hr
      simp [(broker.log tp).beginning_le r hr]

/-- At-least-once delivery. In every reachable world the records below the
committed offsets decode, and all their bars are in the table, counted with
multiplicity over any set of partitions. -/
theorem acknowledged_records_are_stored (h : (system s).Reachable w) :
    (∀ tp, ∀ r ∈ acknowledged w.broker tp, ∃ bars, s.decodeFrame r.value = .ok bars) ∧
      ∀ parts : Finset TopicPartition,
        ∑ tp ∈ parts, ((barsOf s.decodeFrame (acknowledged w.broker tp) : List Bar) : Multiset Bar) ≤
          (w.table.bars : Multiset Bar) := by
  have hsettled := (delivery_sound h).settled
  constructor
  · intro tp r hr
    rw [acknowledged_eq_slice] at hr
    exact hsettled.readable tp r hr
  · intro parts
    simp only [acknowledged_eq_slice]
    exact hsettled.covered parts

/-! ### A run with a crash -/

/-- Frames that are lists of numbers, in batches of two. -/
def sampleSettings : Settings (List Nat) Nat where
  topic := "bars"
  maxRecords := 2
  maxPollRecords := 1
  maxWait := Duration.ofSeconds 300
  heartbeatInterval := Duration.ofSeconds 60
  stallThreshold := Duration.ofSeconds 900
  decodeFrame := .ok
  hash := fun _ => ""

def samplePartition : TopicPartition := ⟨"bars", 0⟩

/-- One empty partition and an empty table. -/
def sampleWorld : World (List Nat) Nat where
  broker := ⟨[samplePartition], List.nodup_singleton _, fun _ => .empty 0, fun _ => none⟩
  table := ⟨"table", [], []⟩
  output := []
  loader := none

theorem sampleWorld_initial : (system sampleSettings).init sampleWorld :=
  ⟨fun _ => rfl, rfl, rfl, rfl⟩

/-- All readings of an action at one second. -/
def second (n : Int) : Readings := ⟨n * 1000000000, n * 1000000000, n * 1000000000, n * 1000000000⟩

/-- The steps of a flush that succeeds, at second `n`. -/
def flushSteps (n : Int) : List (Action (List Nat)) :=
  [.announce (second n), .writeDataFile (.written 100 100) (second n),
    .commitTable .committed (second n), .commitOffsets .committed (second n)]

/-- A process starts, gets its assignment and polls one record. -/
def pollSteps (n : Int) : List (Action (List Nat)) :=
  [.start none (second n), .loopTest, .assign, .poll (some samplePartition) (second n)]

/-- A frame of three bars is half flushed, the process dies, and a second
process reads the frame again and flushes all of it. -/
def sampleRun : List (Action (List Nat)) :=
  [.produce samplePartition 0 [1, 2, 3]] ++ pollSteps 1 ++ flushSteps 1 ++ [.crash false] ++
    pollSteps 2 ++ flushSteps 2 ++
    [.resetWindow (second 2), .ageCheck (second 2), .heartbeat none (second 2), .stop, .loopTest] ++
    flushSteps 3

theorem sampleRun_stored : ∃ w, (system sampleSettings).run sampleWorld sampleRun = some w ∧
    w.table.bars = [1, 2, 1, 2, 3] ∧ w.broker.committed samplePartition = some 1 ∧
    ∀ parts : Finset TopicPartition,
      ∑ tp ∈ parts, ((barsOf sampleSettings.decodeFrame (acknowledged w.broker tp) : List Nat) :
        Multiset Nat) ≤ (w.table.bars : Multiset Nat) :=
  ⟨_, rfl, by decide, by decide, (acknowledged_records_are_stored (.of_run
    (.init sampleWorld_initial)
    (show (system sampleSettings).run sampleWorld sampleRun = some _ from rfl))).2⟩

end Main

end Lakehouse.Loader
