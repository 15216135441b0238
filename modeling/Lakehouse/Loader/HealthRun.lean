/-
Whole runs of one `LoaderHealthReporter`.

A run is the list of calls `Main` makes on a reporter, with the clock readings
of each call. A `Sample` is a heartbeat that passed the interval check and read
the consumer; a failed one is not in `samples`.

* `Call.perform`, `perform` — one call, and a run of calls.
* `samples` — the successful heartbeats of a run, each with the reporter it met.
* `tracking_perform` — only a successful heartbeat changes what stall detection
  remembers.
-/

import Lakehouse.Loader.HealthReporter

namespace Lakehouse.Loader.LoaderHealthReporter

variable {Bar : Type}

/-- A call on the reporter. -/
inductive Call (Bar : Type) where
  | starting (emittedAt now : Instant)
  | recordInput (now : Instant)
  | commitStarted (batch : Batch Bar) (emittedAt : Instant)
  | commitSucceeded (duration : Duration) (now emittedAt : Instant)
  | commitFailed (failure : LoaderCommitException) (duration : Duration) (emittedAt : Instant)
  | loaderFailed (errorClass : String) (emittedAt : Instant)
  | maybeHeartbeat (sample : Except String ConsumerSample) (batch : BoundedBatch Bar)
      (now stalledAt emittedAt : Instant)

/-- The reporter after a call, and the payloads the call prints. -/
def Call.perform (h : LoaderHealthReporter) : Call Bar → LoaderHealthReporter × List Json
  | .starting emittedAt now => h.starting emittedAt now
  | .recordInput now => (h.recordInput now, [])
  | .commitStarted batch emittedAt => h.commitStarted batch emittedAt
  | .commitSucceeded duration now emittedAt => h.commitSucceeded duration now emittedAt
  | .commitFailed failure duration emittedAt => h.commitFailed failure duration emittedAt
  | .loaderFailed errorClass emittedAt => h.loaderFailed errorClass emittedAt
  | .maybeHeartbeat sample batch now stalledAt emittedAt =>
      h.maybeHeartbeat sample batch now stalledAt emittedAt

/-- A heartbeat that read the consumer: the reporter before it, and what it read. -/
structure Sample (Bar : Type) where
  reporter : LoaderHealthReporter
  consumer : ConsumerSample
  batch : BoundedBatch Bar
  now : Instant
  stalledAt : Instant
  emittedAt : Instant

/-- The reporter after the heartbeat, and what it printed. -/
def Sample.outcome (s : Sample Bar) : LoaderHealthReporter × List Json :=
  s.reporter.maybeHeartbeat (.ok s.consumer) s.batch s.now s.stalledAt s.emittedAt

/-- The sample a call takes, if it is a heartbeat, is due and does not fail. -/
def Call.sample? (h : LoaderHealthReporter) : Call Bar → Option (Sample Bar)
  | .maybeHeartbeat (.ok consumer) batch now stalledAt emittedAt =>
      if h.due now then some ⟨h, consumer, batch, now, stalledAt, emittedAt⟩ else none
  | _ => none

/-- The successful heartbeats of a run, in order. -/
def samples (h : LoaderHealthReporter) : List (Call Bar) → List (Sample Bar)
  | [] => []
  | call :: calls => (call.sample? h).toList ++ samples (call.perform h).1 calls

/-! ### What stall detection remembers -/

/-- The fields that decide whether a heartbeat is stalled. -/
structure Tracking where
  previousCommittedOffsets : List (TopicPartition × Nat)
  positiveLagSince : Option Instant
  lastDurableProgressAt : Option Instant
  previousHeartbeatState : Option State
  stallThreshold : Duration

def tracking (h : LoaderHealthReporter) : Tracking :=
  ⟨h.previousCommittedOffsets, h.positiveLagSince, h.lastDurableProgressAt,
    h.previousHeartbeatState, h.stallThreshold⟩

/-- A heartbeat that is not due, or whose sample fails, prints no payload and
leaves everything stall detection remembers as it was. -/
theorem maybeHeartbeat_of_no_sample {h : LoaderHealthReporter}
    {sample : Except String ConsumerSample} {now : Instant}
    (hno : h.due now = false ∨ ∃ errorClass, sample = .error errorClass)
    (batch : BoundedBatch Bar) (stalledAt emittedAt : Instant) :
    (h.maybeHeartbeat sample batch now stalledAt emittedAt).1.tracking = h.tracking ∧
      (h.maybeHeartbeat sample batch now stalledAt emittedAt).2 = [] := by
  rcases hno with hdue | ⟨errorClass, rfl⟩
  · simp [maybeHeartbeat, hdue]
  · unfold maybeHeartbeat
    split
    · exact ⟨rfl, rfl⟩
    · exact ⟨rfl, rfl⟩

/-- A call that takes no sample leaves what stall detection remembers. -/
theorem tracking_perform {h : LoaderHealthReporter} {call : Call Bar}
    (hno : call.sample? h = none) : (call.perform h).1.tracking = h.tracking := by
  cases call with
  | maybeHeartbeat sample batch now stalledAt emittedAt =>
      have hcases : h.due now = false ∨ ∃ errorClass, sample = .error errorClass := by
        cases sample with
        | error errorClass => exact .inr ⟨errorClass, rfl⟩
        | ok consumer =>
            left
            simpa [Call.sample?] using hno
      exact (maybeHeartbeat_of_no_sample hcases batch stalledAt emittedAt).1
  | starting emittedAt now => rfl
  | recordInput now => rfl
  | commitStarted batch emittedAt => rfl
  | commitSucceeded duration now emittedAt => rfl
  | commitFailed failure duration emittedAt => rfl
  | loaderFailed errorClass emittedAt => rfl

/-- A call that takes a sample is that heartbeat. -/
theorem perform_of_sample {h : LoaderHealthReporter} {call : Call Bar} {s : Sample Bar}
    (hs : call.sample? h = some s) :
    s.reporter = h ∧ h.due s.now = true ∧ call.perform h = s.outcome := by
  cases call with
  | maybeHeartbeat sample batch now stalledAt emittedAt =>
      cases sample with
      | error errorClass => simp [Call.sample?] at hs
      | ok consumer =>
          simp only [Call.sample?] at hs
          split at hs
          · rename_i hdue
            cases hs
            exact ⟨rfl, hdue, rfl⟩
          · simp at hs
  | _ => simp [Call.sample?] at hs

end Lakehouse.Loader.LoaderHealthReporter
