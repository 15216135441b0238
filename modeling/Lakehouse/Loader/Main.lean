/-
`Main.java`: the loader process, its loop, and the world it runs in.

A `World` is the broker, the Iceberg table, the output of every process so far,
and the running process if there is one. Each action is the part of `main` or
`flush` between two points where the environment answers or the process can
die, so a run of `system` interleaves production, polls, flushes, failures,
crashes and restarts in any order.

* `Process` — the local variables of `main`, its program counter `Pc`, and
  three history variables no step reads: where the process resumed, what it
  polled and what it has flushed.
* `poll`, `announce`, `writeDataFile`, `commitTable`, `commitOffsets`,
  `resetWindow`, `ageCheck`, `heartbeat`, `loopTest`, `closeResources` — the
  steps of the code.
* `produce`, `start`, `assign`, `stop`, `crash` — the steps around it.
-/

import Mathlib.Logic.Function.Basic
import Lakehouse.Lib.Transition
import Lakehouse.Loader.BatchWindow
import Lakehouse.Loader.HealthReporter
import Lakehouse.Loader.IcebergWriter
import Lakehouse.Loader.Kafka

namespace Lakehouse.Loader

variable {Payload Bar : Type}

/-- The environment variables `main` reads, with the two functions it applies
to payloads and bars. -/
structure Settings (Payload Bar : Type) where
  topic : String
  maxRecords : Nat
  maxPollRecords : Nat
  maxWait : Duration
  heartbeatInterval : Duration
  stallThreshold : Duration
  decodeFrame : Payload → Except String (List Bar)
  hash : Bar → String

/-- The clock readings one action takes: `Instant.now()` up to three times, and
`System.nanoTime()`. -/
structure Readings where
  first : Instant
  second : Instant
  third : Instant
  nano : Int
deriving DecidableEq, Repr

/-! ### State -/

/-- Where `flush` returns to. -/
inductive Resume (Bar : Type) where
  | fullBatches (rest : List (Batch Bar))
  | aged
  | closing
deriving DecidableEq, Repr

/-- The next call `flush` makes. -/
inductive Phase (Bar : Type) where
  | announce
  | dataFile (startedAt : Int)
  | tableCommit (startedAt : Int) (file : DataFile Bar)
  | offsetCommit (startedAt : Int) (inserted : Nat)
deriving DecidableEq, Repr

/-- The next call `main` makes. -/
inductive Pc (Bar : Type) where
  | loopHead
  | polling
  | flushing (batch : Batch Bar) (resume : Resume Bar) (phase : Phase Bar)
  | windowReset
  | ageCheck
  | heartbeat
  | closing
deriving DecidableEq, Repr

/-- A record `main` has received and decoded. -/
structure Polled (Bar : Type) where
  source : Source
  bars : List Bar
deriving DecidableEq, Repr

def Polled.entries (r : Polled Bar) : List (Entry Bar) := sourceEntries r.source r.bars

/-- `position` is the next offset to poll; it means nothing before the first
assignment. -/
structure Process (Bar : Type) where
  running : Bool
  assignment : List TopicPartition
  position : TopicPartition → Nat
  batch : BoundedBatch Bar
  batchWindow : BatchWindow
  health : LoaderHealthReporter
  pc : Pc Bar
  resumedFrom : TopicPartition → Nat
  polled : List (Polled Bar)
  flushed : List (Entry Bar)

/-- A line on standard output: a health payload, or the `committed_at=…` line. -/
inductive Line where
  | health (payload : Json)
  | committed (committedAt : Instant) (received inserted : Nat)

structure World (Payload Bar : Type) where
  broker : Broker Payload
  table : Table Bar
  output : List Line
  loader : Option (Process Bar)

namespace World

variable (w : World Payload Bar)

/-- The process goes on as `p` after printing `lines`. -/
def put (p : Process Bar) (lines : List Line) : World Payload Bar :=
  { w with loader := some p, output := w.output ++ lines }

/-- The process ends after printing `lines`. -/
def exit (lines : List Line) : World Payload Bar :=
  { w with loader := none, output := w.output ++ lines }

def withTable (table : Table Bar) : World Payload Bar := { w with table := table }

/-- The broker applies an offset commit. -/
def commitOffsets (offsets : List (TopicPartition × Nat)) : World Payload Bar :=
  { w with broker := w.broker.commit offsets }

end World

/-- How `commitSync` ends; a failed call may have taken effect. -/
inductive OffsetOutcome where
  | committed
  | failed (cause : String) (landed : Bool)
deriving DecidableEq, Repr

/-! ### The steps of the code -/

namespace Main

variable (s : Settings Payload Bar) (w : World Payload Bar) (p : Process Bar) (c : Readings)

def healthLines (payloads : List Json) : List Line := payloads.map Line.health

/-- `elapsed(startedAt)`. -/
def elapsed (startedAt nanoTime : Int) : Duration := toLong (nanoTime - startedAt)

/-- After `batch.add`: the first full batch is flushed, if there is one. -/
def afterAdd : List (Batch Bar) → Pc Bar
  | [] => .ageCheck
  | first :: rest => .flushing first (.fullBatches rest) .announce

/-- The body of the loop over the polled records, up to the first flush. -/
def receive (tp : TopicPartition) (record : ConsumerRecord Payload) : World Payload Bar :=
  let health := p.health.recordInput c.first
  let source : Source := ⟨tp.topic, tp.partition, record.offset⟩
  match s.decodeFrame record.value with
  | .error errorClass => w.exit (healthLines (health.loaderFailed errorClass c.second).2)
  | .ok bars =>
      let window :=
        if p.batch.isEmpty && !bars.isEmpty then p.batchWindow.openAt c.nano else p.batchWindow
      let added := p.batch.add source bars
      w.put
        { p with
          position := Function.update p.position tp (record.offset + 1)
          health := health
          batchWindow := window
          batch := added.1
          polled := p.polled ++ [⟨source, bars⟩]
          pc := afterAdd added.2 } []

/-- `consumer.poll`: no record, or the next one of some assigned partition
(`max.poll.records` is 1). -/
def poll (from? : Option TopicPartition) : Option (World Payload Bar) :=
  match p.pc with
  | .polling =>
      match from? with
      | none => some (w.put { p with pc := .ageCheck } [])
      | some tp =>
          if tp ∈ p.assignment then
            ((w.broker.log tp).nextFrom (p.position tp)).map (receive s w p c tp)
          else none
  | _ => none

/-- `consumer.poll` throws. -/
def pollFailed (errorClass : String) : Option (World Payload Bar) :=
  match p.pc with
  | .polling => some (w.exit (healthLines (p.health.loaderFailed errorClass c.first).2))
  | _ => none

/-- The head of `flush`. -/
def announce : Option (World Payload Bar) :=
  match p.pc with
  | .flushing batch resume .announce =>
      let (health, payloads) := p.health.commitStarted batch c.first
      some (w.put { p with health := health, pc := .flushing batch resume (.dataFile c.nano) }
        (healthLines payloads))
  | _ => none

/-- `catch (LoaderCommitException failure)`: reported and rethrown out of `main`. -/
def commitFailed (failure : LoaderCommitException) (startedAt : Int) : World Payload Bar :=
  w.exit (healthLines (p.health.commitFailed failure (elapsed startedAt c.nano) c.third).2)

/-- `writer.append`, first half; an empty list of bars returns at once. -/
def writeDataFile (outcome : FileOutcome) : Option (World Payload Bar) :=
  match p.pc with
  | .flushing batch resume (.dataFile startedAt) =>
      if batch.bars.isEmpty then
        some (w.put { p with pc := .flushing batch resume (.offsetCommit startedAt 0) } [])
      else
        let (table, result) :=
          IcebergWriter.writeDataFile s.hash w.table batch.bars c.first c.second outcome
        match result with
        | .error failure => some (commitFailed (w.withTable table) p c failure startedAt)
        | .ok file =>
            some ((w.withTable table).put
              { p with pc := .flushing batch resume (.tableCommit startedAt file) } [])
  | _ => none

/-- `writer.append`, second half. -/
def commitTable (outcome : CommitOutcome) : Option (World Payload Bar) :=
  match p.pc with
  | .flushing batch resume (.tableCommit startedAt file) =>
      let (table, failure?) := IcebergWriter.commitAppend w.table file outcome
      match failure? with
      | some failure => some (commitFailed (w.withTable table) p c failure startedAt)
      | none =>
          some ((w.withTable table).put
            { p with pc := .flushing batch resume (.offsetCommit startedAt batch.bars.length) } [])
  | _ => none

/-- Where `main` goes on after a flush, and what it does to the window first. -/
def afterFlush (window : BatchWindow) : Resume Bar → Pc Bar × BatchWindow
  | .fullBatches [] => (.windowReset, window)
  | .fullBatches (next :: rest) => (.flushing next (.fullBatches rest) .announce, window)
  | .aged => (.heartbeat, BatchWindow.close)
  | .closing => (.closing, window)

/-- The rest of `flush`: `commitSync`, unless there is nothing to commit, and
the success report. -/
def commitOffsets (outcome : OffsetOutcome) : Option (World Payload Bar) :=
  match p.pc with
  | .flushing batch resume (.offsetCommit startedAt inserted) =>
      let offsets := flushOffsets batch.entries
      match if offsets.isEmpty then OffsetOutcome.committed else outcome with
      | .failed cause landed =>
          some (commitFailed (if landed then w.commitOffsets offsets else w) p c
            (.offsetCommitFailed cause) startedAt)
      | .committed =>
          let (health, payloads) :=
            p.health.commitSucceeded (elapsed startedAt c.nano) c.first c.second
          let next := afterFlush p.batchWindow resume
          some ((w.commitOffsets offsets).put
            { p with
              health := health
              flushed := p.flushed ++ batch.entries
              pc := next.1
              batchWindow := next.2 }
            (healthLines payloads ++ [.committed c.third batch.entries.length inserted]))
  | _ => none

/-- After the last full batch of a record. -/
def resetWindow : Option (World Payload Bar) :=
  match p.pc with
  | .windowReset =>
      some (w.put
        { p with batchWindow := BatchWindow.reset (!p.batch.isEmpty) c.nano, pc := .ageCheck } [])
  | _ => none

/-- The time limit of a partial batch. -/
def ageCheck : Option (World Payload Bar) :=
  match p.pc with
  | .ageCheck =>
      if !p.batch.isEmpty && p.batchWindow.expired s.maxWait c.nano then
        p.batch.drain.map fun drained =>
          w.put { p with batch := drained.1, pc := .flushing drained.2 .aged .announce } []
      else some (w.put { p with pc := .heartbeat } [])
  | _ => none

/-- What the consumer answers to the calls of a heartbeat. -/
def sample : LoaderHealthReporter.ConsumerSample where
  assignment := p.assignment
  committed := w.broker.committed
  beginningOffsets tp := some (w.broker.log tp).beginning
  endOffsets tp := some (w.broker.log tp).endOffset

/-- `health.maybeHeartbeat`; `failure` is the class of an exception the sample
throws. -/
def heartbeat (failure : Option String) : Option (World Payload Bar) :=
  match p.pc with
  | .heartbeat =>
      let answer := match failure with
        | some errorClass => .error errorClass
        | none => .ok (sample w p)
      let (health, payloads) := p.health.maybeHeartbeat answer p.batch c.first c.second c.third
      some (w.put { p with health := health, pc := .loopHead } (healthLines payloads))
  | _ => none

/-- `while (running.get())`, and the final flush after the loop. -/
def loopTest : Option (World Payload Bar) :=
  match p.pc with
  | .loopHead =>
      if p.running then some (w.put { p with pc := .polling } [])
      else if p.batch.isEmpty then some (w.put { p with pc := .closing } [])
      else
        p.batch.drain.map fun drained =>
          w.put { p with batch := drained.1, pc := .flushing drained.2 .closing .announce } []
  | _ => none

/-- Leaving the `try`; closing the consumer or the catalog may throw. -/
def closeResources (failure : Option String) : Option (World Payload Bar) :=
  match p.pc with
  | .closing =>
      some (w.exit (match failure with
        | some errorClass => healthLines (p.health.loaderFailed errorClass c.first).2
        | none => []))
  | _ => none

/-! ### The steps around it -/

/-- A record is appended to a partition, at its end or after a gap. -/
def produce (tp : TopicPartition) (offset : Nat) (value : Payload) : Option (World Payload Bar) :=
  if h : (w.broker.log tp).endOffset ≤ offset then
    some { w with broker := w.broker.produce tp offset value h }
  else none

/-- A process starts when none runs. `failure` is the class of an exception
thrown while the consumer and the writer are opened. -/
def start (failure : Option String) : Option (World Payload Bar) :=
  if w.loader.isSome then none
  else if s.maxPollRecords ≠ 1 then some w
  else
    match LoaderHealthReporter.new s.topic s.heartbeatInterval s.stallThreshold c.first with
    | .error _ => some w
    | .ok health =>
        let (health, payloads) := health.starting c.second c.third
        let failed errorClass :=
          w.exit (healthLines (payloads ++ (health.loaderFailed errorClass c.third).2))
        match failure, (BoundedBatch.new s.maxRecords : Except String (BoundedBatch Bar)) with
        | some errorClass, _ => some (failed errorClass)
        | none, .error _ => some (failed "java.lang.IllegalArgumentException")
        | none, .ok batch =>
            some (w.put
              { running := true, assignment := [], position := w.broker.startOffset, batch := batch,
                batchWindow := BatchWindow.new, health := health, pc := .loopHead,
                resumedFrom := w.broker.startOffset, polled := [], flushed := [] }
              (healthLines payloads))

/-- Inside a poll the group assigns its only member every partition. -/
def assign : Option (World Payload Bar) :=
  match p.pc with
  | .polling =>
      if p.assignment = [] then
        some (w.put { p with
          assignment := w.broker.partitions
          position := w.broker.startOffset
          resumedFrom := w.broker.startOffset } [])
      else none
  | _ => none

/-- The shutdown hook. -/
def stop : World Payload Bar := w.put { p with running := false } []

/-- The effect of the request the process is waiting for. -/
def land : World Payload Bar :=
  match p.pc with
  | .flushing _ _ (.tableCommit _ file) => w.withTable (IcebergWriter.appendFile w.table file)
  | .flushing batch _ (.offsetCommit _ _) => w.commitOffsets (flushOffsets batch.entries)
  | _ => w

/-- The process is killed; a request it has sent may still take effect. -/
def crash (landed : Bool) : World Payload Bar := (if landed then land w p else w).exit []

end Main

/-! ### Runs -/

inductive Action (Payload : Type) where
  | produce (tp : TopicPartition) (offset : Nat) (value : Payload)
  | start (failure : Option String) (c : Readings)
  | assign
  | poll (from? : Option TopicPartition) (c : Readings)
  | pollFailed (errorClass : String) (c : Readings)
  | announce (c : Readings)
  | writeDataFile (outcome : FileOutcome) (c : Readings)
  | commitTable (outcome : CommitOutcome) (c : Readings)
  | commitOffsets (outcome : OffsetOutcome) (c : Readings)
  | resetWindow (c : Readings)
  | ageCheck (c : Readings)
  | heartbeat (failure : Option String) (c : Readings)
  | loopTest
  | closeResources (failure : Option String) (c : Readings)
  | stop
  | crash (landed : Bool)

namespace Main

/-- An action of the running process. -/
def processStep (s : Settings Payload Bar) (w : World Payload Bar) (p : Process Bar) :
    Action Payload → Option (World Payload Bar)
  | .produce _ _ _ => none
  | .start _ _ => none
  | .assign => assign w p
  | .poll from? c => poll s w p c from?
  | .pollFailed errorClass c => pollFailed w p c errorClass
  | .announce c => announce w p c
  | .writeDataFile outcome c => writeDataFile s w p c outcome
  | .commitTable outcome c => commitTable w p c outcome
  | .commitOffsets outcome c => commitOffsets w p c outcome
  | .resetWindow c => resetWindow w p c
  | .ageCheck c => ageCheck s w p c
  | .heartbeat failure c => heartbeat w p c failure
  | .loopTest => loopTest w p
  | .closeResources failure c => closeResources w p c failure
  | .stop => some (stop w p)
  | .crash landed => some (crash w p landed)

def step (s : Settings Payload Bar) (w : World Payload Bar) (a : Action Payload) :
    Option (World Payload Bar) :=
  match a with
  | .produce tp offset value => produce w tp offset value
  | .start failure c => start s w c failure
  | a => w.loader.bind fun p => processStep s w p a

/-- Nothing is committed, the table is empty and no process has run; the logs
may hold records already. -/
def Initial (w : World Payload Bar) : Prop :=
  (∀ tp, w.broker.committed tp = none) ∧ w.table.files = [] ∧ w.output = [] ∧ w.loader = none

def system (s : Settings Payload Bar) : Transition.System (World Payload Bar) (Action Payload) :=
  ⟨Initial, step s⟩

end Main

end Lakehouse.Loader
