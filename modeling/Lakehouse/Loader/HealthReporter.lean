/-
`LoaderHealthReporter.java`: the structured health events of the loader.

Every method is a function of the reporter's state and of the clock readings it
takes, and returns the new state with the payloads it prints (the JSON object
after the `LOADER_HEALTH ` prefix). `now` is the reading a method stores,
`emittedAt` the reading `emit` takes for the payload's timestamp.

* `inferState` — the state of a heartbeat, in the source's order of tests.
* `offsets`, `updateProgress`, `maybeHeartbeat` — one heartbeat sample.
* `aggregateLag_offsets`, `inferState_of_not_stalled` — what a sample reports.
-/

import Mathlib.Algebra.GroupWithZero.Nat
import Mathlib.Data.List.Sort
import Lakehouse.Lib.Json
import Lakehouse.Loader.BoundedBatch
import Lakehouse.Loader.CommitException
import Lakehouse.Loader.JavaTime

namespace Lakehouse.Loader

namespace LoaderHealthReporter

/-- `LoaderHealthReporter.State`. -/
inductive State where
  | starting
  | committing
  | stalled
  | catchingUp
  | buffering
  | idle
deriving DecidableEq, Repr

def State.value : State → String
  | .starting => "starting"
  | .committing => "committing"
  | .stalled => "stalled"
  | .catchingUp => "catching_up"
  | .buffering => "buffering"
  | .idle => "idle"

/-- One row of the `partitions` field. -/
structure PartitionOffsets where
  topic : String
  partition : Nat
  committedOffset : Nat
  endOffset : Nat
  lagRecords : Nat
deriving DecidableEq, Repr

def PartitionOffsets.toJson (o : PartitionOffsets) : Json :=
  .obj [("topic", .str o.topic), ("partition", .int o.partition),
    ("committedOffset", .int o.committedOffset), ("endOffset", .int o.endOffset),
    ("lagRecords", .int o.lagRecords)]

/-- What a heartbeat reads from the consumer. A partition without a committed
offset has `committed tp = none`. -/
structure ConsumerSample where
  assignment : List TopicPartition
  committed : TopicPartition → Option Nat
  beginningOffsets : TopicPartition → Option Nat
  endOffsets : TopicPartition → Option Nat

def later : Option Instant → Option Instant → Option Instant
  | none, right => right
  | left, none => left
  | some left, some right => some (if right < left then left else right)

/-- The stall test of `inferState`: lag, and no progress since the boundary. -/
def stallExceeded (lagRecords : Nat) (positiveLagSince lastDurableProgressAt : Option Instant)
    (now : Instant) (stallThreshold : Duration) : Bool :=
  match later positiveLagSince lastDurableProgressAt with
  | some progressBoundary =>
      decide (0 < lagRecords) && decide (stallThreshold ≤ now - progressBoundary)
  | none => false

/-- `inferState`: the first test that applies decides. -/
def inferState (initialized committing : Bool) (lagRecords bufferedBars bufferedSourceRecords : Nat)
    (positiveLagSince lastDurableProgressAt : Option Instant) (now : Instant)
    (stallThreshold : Duration) : State :=
  if !initialized then .starting
  else if committing then .committing
  else if stallExceeded lagRecords positiveLagSince lastDurableProgressAt now stallThreshold then
    .stalled
  else if bufferedSourceRecords < lagRecords then .catchingUp
  else if 0 < bufferedBars ∨ 0 < bufferedSourceRecords then .buffering
  else .idle

end LoaderHealthReporter

open LoaderHealthReporter

/-- The reporter. The constructor rejects intervals that are not positive. -/
structure LoaderHealthReporter where
  topic : String
  heartbeatInterval : Duration
  heartbeatInterval_pos : 0 < heartbeatInterval
  stallThreshold : Duration
  stallThreshold_pos : 0 < stallThreshold
  processStartedAt : Instant
  previousCommittedOffsets : List (TopicPartition × Nat)
  lastHeartbeatAt : Option Instant
  lastInputAt : Option Instant
  lastCommitAt : Option Instant
  lastCommitDurationMs : Option Int
  positiveLagSince : Option Instant
  lastDurableProgressAt : Option Instant
  committing : Bool
  previousHeartbeatState : Option LoaderHealthReporter.State

namespace LoaderHealthReporter

variable {Bar : Type}

/-- `new LoaderHealthReporter(topic, heartbeatInterval, stallThreshold)`. -/
def new (topic : String) (heartbeatInterval stallThreshold : Duration) (now : Instant) :
    Except String LoaderHealthReporter :=
  if hbeat : 0 < heartbeatInterval then
    if hstall : 0 < stallThreshold then
      .ok ⟨topic, heartbeatInterval, hbeat, stallThreshold, hstall, now, [], none, none, none,
        none, none, none, false, none⟩
    else .error "LOADER_STALL_SECONDS must be positive"
  else .error "LOADER_HEARTBEAT_SECONDS must be positive"

def text : Option Instant → Json
  | none => .null
  | some value => .str value.text

def baseFields (h : LoaderHealthReporter) (state : State) : List (String × Json) :=
  [("state", .str state.value), ("process_started_at_utc", .str h.processStartedAt.text),
    ("topic", .str h.topic), ("last_input_at_utc", text h.lastInputAt),
    ("last_commit_at_utc", text h.lastCommitAt),
    ("last_commit_duration_ms", match h.lastCommitDurationMs with
      | none => .null
      | some ms => .int ms)]

/-- `emit`: the payload printed after the prefix. -/
def emit (event level : String) (fields : List (String × Json)) (emittedAt : Instant) : Json :=
  .obj [("timestamp", .str emittedAt.text), ("level", .str level),
    ("target", .str "iceberg_loader::health"),
    ("fields", .obj (fields ++ [("event", .str event)]))]

def starting (h : LoaderHealthReporter) (emittedAt now : Instant) :
    LoaderHealthReporter × List Json :=
  ({ h with lastHeartbeatAt := some now },
    [emit "heartbeat" "INFO" (h.baseFields .starting) emittedAt])

def recordInput (h : LoaderHealthReporter) (now : Instant) : LoaderHealthReporter :=
  { h with lastInputAt := some now }

def commitStarted (h : LoaderHealthReporter) (batch : Batch Bar) (emittedAt : Instant) :
    LoaderHealthReporter × List Json :=
  let h := { h with committing := true }
  (h, [emit "commit_started" "INFO"
    (h.baseFields .committing ++ [("batch_bars", .int batch.barCount),
      ("batch_source_records", .int batch.sourceRecordCount)]) emittedAt])

def commitSucceeded (h : LoaderHealthReporter) (duration : Duration) (now emittedAt : Instant) :
    LoaderHealthReporter × List Json :=
  let h := { h with
    committing := false, lastCommitAt := some now, lastCommitDurationMs := some duration.toMillis }
  (h, [emit "commit_succeeded" "INFO"
    (h.baseFields .committing ++ [("durable_commit_total_duration_ms", .int duration.toMillis)])
    emittedAt])

def commitFailed (h : LoaderHealthReporter) (failure : LoaderCommitException) (duration : Duration)
    (emittedAt : Instant) : LoaderHealthReporter × List Json :=
  let h := { h with committing := false }
  (h, [emit "commit_failed" "ERROR"
    (h.baseFields .committing ++ [("failure_type", .str failure.type.eventName),
      ("error_class", .str failure.causeClass),
      ("iceberg_commit_status", .str failure.icebergCommitStatus),
      ("offset_commit_status", .str failure.offsetCommitStatus),
      ("durable_commit_total_duration_ms", .int duration.toMillis)]) emittedAt])

def loaderFailed (h : LoaderHealthReporter) (errorClass : String) (emittedAt : Instant) :
    LoaderHealthReporter × List Json :=
  (h, [emit "loader_failed" "ERROR"
    (h.baseFields (if h.committing then .committing else .starting) ++
      [("failure_type", .str "loader_failed"), ("error_class", .str errorClass),
        ("iceberg_commit_status", .str "unknown"), ("offset_commit_status", .str "unknown")])
    emittedAt])

/-! ### Heartbeats -/

/-- `Comparator.comparing(topic).thenComparingInt(partition)`. -/
def PartitionOffsets.Le (a b : PartitionOffsets) : Prop :=
  a.topic < b.topic ∨ a.topic = b.topic ∧ a.partition ≤ b.partition

instance : DecidableRel PartitionOffsets.Le := fun a b =>
  inferInstanceAs (Decidable (a.topic < b.topic ∨ a.topic = b.topic ∧ a.partition ≤ b.partition))

/-- One partition's row: a missing committed offset is replaced by the beginning
of the partition, and lag is never negative. -/
def partitionOffsets (c : ConsumerSample) (tp : TopicPartition) : PartitionOffsets :=
  let committedOffset := match c.committed tp with
    | none => (c.beginningOffsets tp).getD 0
    | some offset => offset
  let endOffset := (c.endOffsets tp).getD committedOffset
  ⟨tp.topic, tp.partition, committedOffset, endOffset, endOffset - committedOffset⟩

/-- `offsets(consumer)`. -/
def offsets (c : ConsumerSample) : List PartitionOffsets :=
  (c.assignment.map (partitionOffsets c)).insertionSort PartitionOffsets.Le

def aggregateLag (rows : List PartitionOffsets) : Nat :=
  (rows.map PartitionOffsets.lagRecords).sum

/-- `updateProgress`: the new state and whether some committed offset advanced. -/
def updateProgress (h : LoaderHealthReporter) (rows : List PartitionOffsets) (lag : Nat)
    (now : Instant) : LoaderHealthReporter × Bool :=
  let progressed := rows.any fun o =>
    match h.previousCommittedOffsets.lookup ⟨o.topic, o.partition⟩ with
    | some previous => decide (previous < o.committedOffset)
    | none => false
  let h := { h with
    previousCommittedOffsets := rows.map fun (o : PartitionOffsets) =>
      (⟨o.topic, o.partition⟩, o.committedOffset) }
  if lag = 0 then
    ({ h with positiveLagSince := none, lastDurableProgressAt := some now }, progressed)
  else
    ({ h with
      positiveLagSince := some (h.positiveLagSince.getD now)
      lastDurableProgressAt := if progressed then some now else h.lastDurableProgressAt },
      progressed)

/-- The interval check of `maybeHeartbeat`. -/
def due (h : LoaderHealthReporter) (now : Instant) : Bool :=
  match h.lastHeartbeatAt with
  | some last => decide (h.heartbeatInterval ≤ now - last)
  | none => true

/-- `maybeHeartbeat`. `sample` is what the consumer calls return, or the class
of the `RuntimeException` one of them throws; nothing after them throws. Each of
the two payloads has its own reading of the clock. -/
def maybeHeartbeat (h : LoaderHealthReporter) (sample : Except String ConsumerSample)
    (batch : BoundedBatch Bar) (now stalledAt emittedAt : Instant) :
    LoaderHealthReporter × List Json :=
  if !h.due now then (h, [])
  else match sample with
    | .error _ => ({ h with lastHeartbeatAt := some now }, [])
    | .ok consumer =>
        let rows := offsets consumer
        let lag := aggregateLag rows
        let (h, _) := h.updateProgress rows lag now
        let state := inferState (!rows.isEmpty) h.committing lag batch.barCount
          batch.sourceRecordCount h.positiveLagSince h.lastDurableProgressAt now h.stallThreshold
        let fields := h.baseFields state ++ [("partitions", .arr (rows.map (·.toJson))),
          ("aggregate_lag_records", .int lag), ("buffered_bars", .int batch.barCount),
          ("buffered_source_records", .int batch.sourceRecordCount)]
        let stalled :=
          if state = .stalled ∧ h.previousHeartbeatState ≠ some .stalled then
            [emit "stalled" "ERROR" fields stalledAt]
          else []
        ({ h with previousHeartbeatState := some state, lastHeartbeatAt := some now },
          stalled ++ [emit "heartbeat" "INFO" fields emittedAt])

/-! ### What a sample reports -/

/-- Sorting the rows does not change the total lag. -/
theorem aggregateLag_offsets (c : ConsumerSample) :
    aggregateLag (offsets c) =
      (c.assignment.map fun tp => (partitionOffsets c tp).lagRecords).sum := by
  have hperm := (List.perm_insertionSort PartitionOffsets.Le
    (c.assignment.map (partitionOffsets c))).map PartitionOffsets.lagRecords
  rw [aggregateLag, offsets, hperm.sum_nat, List.map_map]
  rfl

@[simp] theorem offsets_eq_nil_iff (c : ConsumerSample) : offsets c = [] ↔ c.assignment = [] := by
  rw [offsets, ← List.length_eq_zero_iff, List.length_insertionSort, List.length_map,
    List.length_eq_zero_iff]

/-- An initialized reporter outside a commit that is not stalled reports by
comparing lag with the buffered source records. -/
theorem inferState_of_not_stalled {lag bars sources : Nat} {since progress : Option Instant}
    {now : Instant} {threshold : Duration}
    (h : inferState true false lag bars sources since progress now threshold ≠ .stalled) :
    inferState true false lag bars sources since progress now threshold =
      if sources < lag then .catchingUp
      else if 0 < bars ∨ 0 < sources then .buffering
      else .idle := by
  unfold inferState at h ⊢
  by_cases hstall : stallExceeded lag since progress now threshold = true
  · simp [hstall] at h
  · simp [hstall]

/-- Without lag nothing is stalled. -/
@[simp] theorem stallExceeded_zero (since progress : Option Instant) (now : Instant)
    (threshold : Duration) : stallExceeded 0 since progress now threshold = false := by
  unfold stallExceeded
  split <;> simp

/-- With an empty buffer the state tells whether there is lag. -/
theorem inferState_of_empty_buffer (lag : Nat) (since progress : Option Instant) (now : Instant)
    (threshold : Duration) :
    (inferState true false lag 0 0 since progress now threshold = .idle ↔ lag = 0) ∧
      (inferState true false lag 0 0 since progress now threshold = .catchingUp ∨
        inferState true false lag 0 0 since progress now threshold = .stalled ↔ ¬ lag = 0) := by
  unfold inferState
  by_cases hlag : lag = 0
  · simp [hlag]
  · have hpos : 0 < lag := by omega
    cases stallExceeded lag since progress now threshold <;> simp [hlag, hpos]

theorem committing_new {topic : String} {heartbeatInterval stallThreshold : Duration} {now : Instant}
    {h : LoaderHealthReporter} (hnew : new topic heartbeatInterval stallThreshold now = .ok h) :
    h.committing = false := by
  unfold new at hnew
  split at hnew
  · split at hnew
    · cases hnew
      rfl
    · simp at hnew
  · simp at hnew

/-- A member of the `fields` object of a payload. -/
def field (payload : Json) (name : String) : Option Json :=
  (payload.get? "fields").bind (·.get? name)

/-- A due heartbeat whose sample succeeds prints the sampled lag, the buffered
records, and the state inferred from them. -/
theorem maybeHeartbeat_reports {h : LoaderHealthReporter} {now : Instant} (hdue : h.due now = true)
    (c : ConsumerSample) (batch : BoundedBatch Bar) (stalledAt emittedAt : Instant) :
    ∃ payload ∈ (h.maybeHeartbeat (.ok c) batch now stalledAt emittedAt).2, ∃ since progress,
      field payload "event" = some (.str "heartbeat") ∧
      field payload "aggregate_lag_records" = some (.int (aggregateLag (offsets c))) ∧
      field payload "buffered_source_records" = some (.int batch.sourceRecordCount) ∧
      field payload "state" = some (.str (inferState (!(offsets c).isEmpty) h.committing
        (aggregateLag (offsets c)) batch.barCount batch.sourceRecordCount since progress now
        h.stallThreshold).value) := by
  have hcommitting : (h.updateProgress (offsets c) (aggregateLag (offsets c)) now).1.committing =
      h.committing := by
    unfold updateProgress
    dsimp only
    split <;> rfl
  have hthreshold : (h.updateProgress (offsets c) (aggregateLag (offsets c)) now).1.stallThreshold =
      h.stallThreshold := by
    unfold updateProgress
    dsimp only
    split <;> rfl
  simp only [maybeHeartbeat, hdue, Bool.not_true, Bool.false_eq_true, if_false, hcommitting,
    hthreshold]
  exact ⟨_, List.mem_append_right _ (List.mem_singleton_self _), _, _, rfl, rfl, rfl, rfl⟩

/-- A heartbeat does not change whether a commit is in progress. -/
@[simp] theorem committing_maybeHeartbeat (h : LoaderHealthReporter)
    (sample : Except String ConsumerSample) (batch : BoundedBatch Bar)
    (now stalledAt emittedAt : Instant) :
    (h.maybeHeartbeat sample batch now stalledAt emittedAt).1.committing = h.committing := by
  unfold maybeHeartbeat
  split
  · rfl
  · cases sample with
    | error errorClass => rfl
    | ok c =>
        simp only [updateProgress]
        split <;> rfl

end LoaderHealthReporter

end Lakehouse.Loader
