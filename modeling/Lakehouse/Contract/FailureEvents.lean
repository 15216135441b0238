/-
How the loader's failures reach the dashboard.

The reporter prints the failures of commits under the event `commit_failed`,
with their type in a field; the exporter and its filter know the types as events
of their own.

* `LoaderLog` — the log of any runs of the loader.
* `readEntry_loaderLine` — what the exporter makes of a line.
* `failures_reported_iff` — which runs are reported as they failed.
* `commitFailed_unreported` — a failed commit that nobody hears of.
-/

import Lakehouse.Contract.InstantText
import Lakehouse.Dashboard.Filters
import Lakehouse.Dashboard.LatestHeartbeat
import Lakehouse.Dashboard.SnapshotReturns
import Lakehouse.Lib.JsonNames
import Lakehouse.Loader.HealthRun

namespace Lakehouse.Contract

open Dashboard (Host Utc Reading Readings LoaderEvent LoaderEventName LoaderFailure LoaderSummary
  DashboardSettings Inputs Filter Returns LOADER_UNIT LOADER_TOPIC LOADER_HEALTH_TARGET dictGet
  dictGetOr)
open Loader (Instant Duration LoaderCommitException LoaderHealthReporter)
open Loader.LoaderHealthReporter (Call State)

variable {Bar : Type}

/-! ### Calls and what they print -/

/-- The failure a commit's exception is. -/
def failureOf : LoaderCommitException.FailureType → LoaderFailure
  | .dataFileWriteFailed => .dataFileWriteFailed
  | .icebergCommitFailed => .icebergCommitFailed
  | .icebergCommitStateUnknown => .icebergCommitStateUnknown
  | .offsetCommitFailed => .offsetCommitFailed

/-- The failure a call reports. -/
def failure? : Call Bar → Option LoaderFailure
  | .commitFailed failure _ _ => some (failureOf failure.type)
  | .loaderFailed _ _ => some .loaderFailed
  | _ => none

def IsCommitFailed : Call Bar → Prop
  | .commitFailed _ _ _ => True
  | _ => False

/-- A payload, and the call that printed it. -/
structure Emission (Bar : Type) where
  call : Call Bar
  payload : Json

/-- What a run of calls prints. -/
def emissions (h : LoaderHealthReporter) : List (Call Bar) → List (Emission Bar)
  | [] => []
  | call :: calls =>
      (call.perform h).2.map (fun payload => ⟨call, payload⟩) ++ emissions (call.perform h).1 calls

/-- A process of the loader, from its reporter on. -/
structure LoaderRun (Bar : Type) where
  reporter : LoaderHealthReporter
  calls : List (Call Bar)
  created : ∃ heartbeatInterval stallThreshold startedAt,
    LoaderHealthReporter.new LOADER_TOPIC heartbeatInterval stallThreshold startedAt = .ok reporter

def LoaderRun.emissions (r : LoaderRun Bar) : List (Emission Bar) := Contract.emissions r.reporter r.calls

/-- A payload with the time the log gives it. -/
structure LoaderLine (host : Host) (Bar : Type) where
  emission : Emission Bar
  stamp : String
  at_ : Utc
  parsed : host.parseUtc stamp = .ok at_

/-- The log entry of a payload. -/
def LoaderLine.entry {host : Host} (l : LoaderLine host Bar) : Json :=
  .obj [("timestamp", .str l.stamp),
    ("jsonPayload", .obj (("_SYSTEMD_UNIT", .str LOADER_UNIT) :: l.emission.payload.fields.getD []))]

/-- The log of some runs. -/
structure LoaderLog (host : Host) (runs : List (LoaderRun Bar)) where
  lines : List (LoaderLine host Bar)
  complete : lines.map LoaderLine.emission = runs.flatMap LoaderRun.emissions

def LoaderLog.entries {host : Host} {runs : List (LoaderRun Bar)} (log : LoaderLog host runs) :
    List Json := log.lines.map LoaderLine.entry

/-- The failures of all runs. -/
def failures (runs : List (LoaderRun Bar)) : List LoaderFailure :=
  (runs.flatMap LoaderRun.calls).filterMap failure?

/-! ### The payloads of a reporter -/

/-- The failure that the exporter's list of events has for a call. -/
def knownFailure? : Call Bar → Option LoaderFailure
  | .loaderFailed _ _ => some .loaderFailed
  | _ => none

def nameFailure? : LoaderEventName → Option LoaderFailure
  | .failure f => some f
  | _ => none

/-- A payload of a call: what all payloads begin with, for the exporter's topic, and an
event that stands for no other failure than the call does. -/
def Printed (call : Call Bar) (payload : Json) : Prop :=
  ∃ (h : LoaderHealthReporter) (state : State) (event level : String)
    (extra : List (String × Json)) (emittedAt : Instant),
    payload = LoaderHealthReporter.emit event level (h.baseFields state ++ extra) emittedAt ∧
    h.topic = LOADER_TOPIC ∧ Json.lookup "event" extra = none ∧
    (LoaderEventName.ofText? event).bind nameFailure? = knownFailure? call

theorem topic_updateProgress (h : LoaderHealthReporter)
    (rows : List LoaderHealthReporter.PartitionOffsets) (lag : Nat) (now : Instant) :
    (h.updateProgress rows lag now).1.topic = h.topic := by
  simp only [LoaderHealthReporter.updateProgress]
  split
  · rfl
  · rfl

theorem printed_of_mem {h : LoaderHealthReporter} (htopic : h.topic = LOADER_TOPIC) {call : Call Bar}
    {payload : Json} (hmem : payload ∈ (call.perform h).2) : Printed call payload := by
  cases call with
  | starting emittedAt now =>
      obtain rfl := List.mem_singleton.mp hmem
      exact ⟨h, .starting, "heartbeat", "INFO", [], emittedAt, by rw [List.append_nil], htopic, rfl, rfl⟩
  | recordInput now => cases hmem
  | commitStarted batch emittedAt =>
      obtain rfl := List.mem_singleton.mp hmem
      exact ⟨_, _, _, _, _, _, rfl, htopic, rfl, rfl⟩
  | commitSucceeded duration now emittedAt =>
      obtain rfl := List.mem_singleton.mp hmem
      exact ⟨_, _, _, _, _, _, rfl, htopic, rfl, rfl⟩
  | commitFailed failure duration emittedAt =>
      obtain rfl := List.mem_singleton.mp hmem
      exact ⟨_, _, _, _, _, _, rfl, htopic, rfl, rfl⟩
  | loaderFailed errorClass emittedAt =>
      obtain rfl := List.mem_singleton.mp hmem
      exact ⟨_, _, _, _, _, _, rfl, htopic, rfl, rfl⟩
  | maybeHeartbeat sample batch now stalledAt emittedAt =>
      simp only [Call.perform, LoaderHealthReporter.maybeHeartbeat] at hmem
      split at hmem
      · cases hmem
      · cases sample with
        | error errorClass => cases hmem
        | ok consumer =>
            have htopic := (topic_updateProgress h (LoaderHealthReporter.offsets consumer)
              (LoaderHealthReporter.aggregateLag (LoaderHealthReporter.offsets consumer)) now).trans htopic
            rcases List.mem_append.mp hmem with hstalled | hbeat
            · split at hstalled
              · obtain rfl := List.mem_singleton.mp hstalled
                exact ⟨_, _, _, _, _, _, rfl, htopic, rfl, rfl⟩
              · cases hstalled
            · obtain rfl := List.mem_singleton.mp hbeat
              exact ⟨_, _, _, _, _, _, rfl, htopic, rfl, rfl⟩

theorem topic_perform (h : LoaderHealthReporter) (call : Call Bar) :
    (call.perform h).1.topic = h.topic := by
  cases call with
  | maybeHeartbeat sample batch now stalledAt emittedAt =>
      simp only [Call.perform, LoaderHealthReporter.maybeHeartbeat]
      split
      · rfl
      · cases sample with
        | error errorClass => rfl
        | ok consumer => exact topic_updateProgress h _ _ now
  | _ => rfl

theorem printed_of_emission {h : LoaderHealthReporter} (htopic : h.topic = LOADER_TOPIC)
    {calls : List (Call Bar)} {e : Emission Bar} (hmem : e ∈ emissions h calls) :
    Printed e.call e.payload := by
  induction calls generalizing h with
  | nil => cases hmem
  | cons call calls ih =>
      rcases List.mem_append.mp hmem with hnow | hlater
      · obtain ⟨payload, hpayload, rfl⟩ := List.mem_map.mp hnow
        exact printed_of_mem htopic hpayload
      · exact ih ((topic_perform h call).trans htopic) hlater

theorem LoaderRun.topic (r : LoaderRun Bar) : r.reporter.topic = LOADER_TOPIC := by
  obtain ⟨_, _, _, hnew⟩ := r.created
  unfold LoaderHealthReporter.new at hnew
  split at hnew
  · split at hnew
    · rw [← Except.ok.inj hnew]
    · cases hnew
  · cases hnew

theorem LoaderLog.exists_run {host : Host} {runs : List (LoaderRun Bar)} (log : LoaderLog host runs)
    {l : LoaderLine host Bar} (hl : l ∈ log.lines) : ∃ r ∈ runs, l.emission ∈ r.emissions := by
  have hmem : l.emission ∈ runs.flatMap LoaderRun.emissions :=
    log.complete ▸ List.mem_map_of_mem hl
  exact List.mem_flatMap.mp hmem

theorem LoaderLog.printed {host : Host} {runs : List (LoaderRun Bar)} (log : LoaderLog host runs)
    {l : LoaderLine host Bar} (hl : l ∈ log.lines) : Printed l.emission.call l.emission.payload := by
  obtain ⟨r, _, hr⟩ := log.exists_run hl
  exact printed_of_emission r.topic hr

/-! ### What the exporter makes of a line -/

section Reading

variable {host : Host} (now : Utc)

/-- The reading of a line. -/
structure ReadAs (l : LoaderLine host Bar) (r : Reading) : Prop where
  extractor : r.extractor = none
  alert : r.alert = r.loader.bind Dashboard.loaderAlert
  at_ : ∀ e ∈ r.loader, e.at_ = l.at_
  readable : ∀ e ∈ r.loader, e.Readable host
  process : ∀ e ∈ r.loader, e.process.nesting = 0
  failure : r.loader.bind LoaderEvent.failure? = knownFailure? l.emission.call

theorem lookup_event {extra : List (String × Json)} (h : LoaderHealthReporter) (state : State)
    (event : String) (hextra : Json.lookup "event" extra = none) :
    Json.lookup "event" (h.baseFields state ++ extra ++ [("event", .str event)]) =
      some (.str event) := by
  rw [List.append_assoc, Json.lookup_append, Json.lookup_append, hextra]
  rfl

theorem readable_text (host : Host) (t : Option Instant) :
    host.Readable (LoaderHealthReporter.text t) := by
  cases t with
  | none => exact host.readable_null
  | some t => exact optionalUtc_text host t

/-- The entry of a payload with the reporter's target and topic is taken as its event. -/
theorem extractLoaderEvent_line {members fields : Dashboard.Dict} {event : String} (at_ : Utc)
    (htarget : dictGet members "target" = .str LOADER_HEALTH_TARGET)
    (hmembers : dictGet members "fields" = .obj fields)
    (htopic : dictGet fields "topic" = .str LOADER_TOPIC)
    (hevent : dictGet fields "event" = .str event) :
    Dashboard.extractLoaderEvent members at_ =
      .ok ((LoaderEventName.ofText? event).map fun name => ⟨at_, name, fields⟩) := by
  simp only [Dashboard.extractLoaderEvent, htarget, hmembers, hevent, htopic]
  cases LoaderEventName.ofText? event with
  | none => rfl
  | some name => rfl

theorem readEntry_loaderLine {l : LoaderLine host Bar} (h : Printed l.emission.call l.emission.payload) :
    ∃ r, host.readEntry now l.entry = .ok r ∧ ReadAs l r := by
  obtain ⟨h, state, event, level, extra, emittedAt, hpayload, htopic, hextra, hname⟩ := h
  have hstamp : host.parseUtcValue (.str l.stamp) = .ok l.at_ := l.parsed
  have hevent : dictGet (h.baseFields state ++ extra ++ [("event", .str event)]) "event" = .str event := by
    rw [dictGet, dictGetOr, lookup_event h state event hextra]
    rfl
  have htopicField : dictGet (h.baseFields state ++ extra ++ [("event", .str event)]) "topic" =
      .str LOADER_TOPIC := by
    simp [dictGet, dictGetOr, LoaderHealthReporter.baseFields, Json.lookup, htopic]
  have hprocess : host.Readable (dictGet (h.baseFields state ++ extra ++ [("event", .str event)])
      "process_started_at_utc") := readable_text host (some h.processStartedAt)
  have hinput : host.Readable (dictGet (h.baseFields state ++ extra ++ [("event", .str event)])
      "last_input_at_utc") := readable_text host h.lastInputAt
  have hcommit : host.Readable (dictGet (h.baseFields state ++ extra ++ [("event", .str event)])
      "last_commit_at_utc") := readable_text host h.lastCommitAt
  have hmembers : l.emission.payload.fields.getD [] =
      [("timestamp", .str emittedAt.text), ("level", .str level), ("target", .str LOADER_HEALTH_TARGET),
        ("fields", .obj (h.baseFields state ++ extra ++ [("event", .str event)]))] := by
    rw [hpayload]
    rfl
  have hnesting : (dictGet (h.baseFields state ++ extra ++ [("event", .str event)])
      "process_started_at_utc").nesting = 0 := rfl
  generalize h.baseFields state ++ extra ++ [("event", .str event)] = fields at *
  have htarget : dictGet (("_SYSTEMD_UNIT", .str LOADER_UNIT) :: l.emission.payload.fields.getD [])
      "target" = .str LOADER_HEALTH_TARGET := by
    rw [hmembers]
    rfl
  have hfields : dictGet (("_SYSTEMD_UNIT", .str LOADER_UNIT) :: l.emission.payload.fields.getD [])
      "fields" = .obj fields := by
    rw [hmembers]
    rfl
  have hextract := extractLoaderEvent_line l.at_ htarget hfields htopicField hevent
  have hread : host.readEntry now l.entry = .ok ⟨none,
      (LoaderEventName.ofText? event).map fun name => ⟨l.at_, name, fields⟩,
      ((LoaderEventName.ofText? event).map fun name => ⟨l.at_, name, fields⟩).bind
        Dashboard.loaderAlert⟩ := by
    refine Result.bind_eq_ok.mpr ⟨.obj _, rfl, Result.bind_eq_ok.mpr ⟨.str l.stamp, rfl,
      Result.bind_eq_ok.mpr ⟨l.at_, hstamp, ?_⟩⟩⟩
    have hunit : dictGet (("_SYSTEMD_UNIT", .str LOADER_UNIT) :: l.emission.payload.fields.getD [])
        "_SYSTEMD_UNIT" = .str LOADER_UNIT := rfl
    rw [hunit, if_neg (by decide), if_pos (by decide)]
    exact Result.bind_eq_ok.mpr ⟨_, hextract, rfl⟩
  refine ⟨_, hread, rfl, rfl, ?_, ?_, ?_, ?_⟩
  · intro e he
    obtain ⟨name, _, rfl⟩ := Option.map_eq_some_iff.mp he
    rfl
  · intro e he
    obtain ⟨name, _, rfl⟩ := Option.map_eq_some_iff.mp he
    exact ⟨hprocess, hinput, hcommit⟩
  · intro e he
    obtain ⟨name, _, rfl⟩ := Option.map_eq_some_iff.mp he
    exact hnesting
  · rw [← hname]
    cases LoaderEventName.ofText? event with
    | none => rfl
    | some name => cases name <;> rfl

theorem readEntries_lines {lines : List (LoaderLine host Bar)}
    (h : ∀ l ∈ lines, Printed l.emission.call l.emission.payload) :
    ∃ rs, host.readEntries now (lines.map LoaderLine.entry) = .ok (Readings.of rs) ∧
      List.Forall₂ ReadAs lines rs := by
  have hall : ∃ rs, List.Forall₂ (fun entry r => host.readEntry now entry = .ok r)
      (lines.map LoaderLine.entry) rs ∧ List.Forall₂ ReadAs lines rs := by
    induction lines with
    | nil => exact ⟨[], .nil, .nil⟩
    | cons l lines ih =>
        rw [List.forall_mem_cons] at h
        obtain ⟨r, hr, hread⟩ := readEntry_loaderLine now h.1
        obtain ⟨rs, hrs, hreads⟩ := ih h.2
        exact ⟨r :: rs, .cons hr hrs, .cons hread hreads⟩
  obtain ⟨rs, hrs, hreads⟩ := hall
  exact ⟨rs, Result.bind_eq_ok.mpr ⟨rs, Result.mapM_eq_ok.mpr hrs, rfl⟩, hreads⟩

end Reading

/-! ### From readings to the summary -/

section Summary

variable {host : Host} {lines : List (LoaderLine host Bar)} {rs : List Reading}

theorem readAs_of_mem (h : List.Forall₂ ReadAs lines rs) {r : Reading} (hr : r ∈ rs) :
    ∃ l ∈ lines, ReadAs l r :=
  Result.exists_of_mem_left h.flip hr

theorem extractor_of_readings (h : List.Forall₂ ReadAs lines rs) :
    rs.filterMap Reading.extractor = [] := by
  induction h with
  | nil => rfl
  | cons hr _ ih => rw [List.filterMap_cons_none hr.extractor, ih]

theorem failures_of_readings (h : List.Forall₂ ReadAs lines rs) :
    (rs.filterMap Reading.loader).filterMap LoaderEvent.failure? =
      lines.filterMap fun l => knownFailure? l.emission.call := by
  rw [List.filterMap_filterMap]
  induction h with
  | nil => rfl
  | cons hr _ ih => rw [List.filterMap_cons, List.filterMap_cons, hr.failure, ih]

/-- The component, the severity and the code of an alert. -/
def alertParts (a : Dashboard.Alert) : Dashboard.Component × Dashboard.Severity × Dashboard.AlertCode :=
  (a.component, a.severity, a.code)

theorem alerts_of_readings (h : List.Forall₂ ReadAs lines rs) :
    (rs.filterMap Reading.alert).map alertParts =
      (lines.filterMap fun l => knownFailure? l.emission.call).map fun f =>
        (.loader, .error, .failure f) := by
  have hparts {l : LoaderLine host Bar} {r : Reading} (hr : ReadAs l r) :
      r.alert.map alertParts = (knownFailure? l.emission.call).map fun f =>
        (.loader, .error, .failure f) := by
    rw [hr.alert, ← hr.failure]
    cases r.loader with
    | none => rfl
    | some e =>
        simp only [Option.bind_some, Dashboard.loaderAlert, Option.map_map]
        rfl
  rw [List.map_filterMap, List.map_filterMap]
  induction h with
  | nil => rfl
  | cons hr _ ih => rw [List.filterMap_cons, List.filterMap_cons, hparts hr, ih]

theorem readable_of_readings (h : List.Forall₂ ReadAs lines rs) :
    ∀ e ∈ rs.filterMap Reading.loader, e.Readable host ∧ e.process.nesting = 0 := by
  intro e he
  obtain ⟨r, hr, hre⟩ := List.mem_filterMap.mp he
  obtain ⟨l, _, hl⟩ := readAs_of_mem h hr
  exact ⟨hl.readable e hre, hl.process e hre⟩

/-- Lines in order of time are read as events in order of time. -/
theorem ordered_of_readings (h : List.Forall₂ ReadAs lines rs)
    (hordered : lines.Pairwise fun a b => a.at_.micros ≤ b.at_.micros) :
    (rs.filterMap Reading.loader).Pairwise Dashboard.LoaderEvent.Le := by
  rw [List.pairwise_filterMap]
  induction h with
  | nil => exact .nil
  | cons hr hrest ih =>
      rw [List.pairwise_cons] at hordered
      refine List.pairwise_cons.mpr ⟨?_, ih hordered.2⟩
      intro r' hr' e he e' he'
      obtain ⟨l', hl', hread⟩ := readAs_of_mem hrest hr'
      rw [Dashboard.LoaderEvent.Le, hr.at_ e he, hread.at_ e' he']
      exact hordered.1 l' hl'

theorem find?_bind_eq_findSome? {α β : Type} (f : α → Option β) (xs : List α) :
    (xs.find? fun x => (f x).isSome).bind f = xs.findSome? f := by
  induction xs with
  | nil => rfl
  | cons x xs ih =>
      cases hx : f x with
      | none => simp [hx, ih]
      | some y => simp [hx]

theorem loaderSummary_failures {events : List LoaderEvent} {limit : Int} {summary : LoaderSummary}
    (h : host.loaderSummary events limit = .ok summary) :
    summary.failureCount = (events.filterMap LoaderEvent.failure?).length ∧
      summary.lastFailureCode = (events.filterMap LoaderEvent.failure?).getLast? := by
  obtain ⟨-, h⟩ := Dashboard.loaderSummary_eq_ok.mp h
  obtain ⟨_, _, h⟩ := Result.bind_eq_ok.mp h
  obtain ⟨_, _, h⟩ := Result.bind_eq_ok.mp h
  obtain ⟨_, _, h⟩ := Result.bind_eq_ok.mp h
  obtain ⟨_, _, h⟩ := Result.bind_eq_ok.mp h
  cases Result.pure_eq_ok.mp h
  constructor
  · rw [List.length_filterMap_eq_countP, List.countP_eq_length_filter]
  · rw [List.getLast?_filterMap, ← find?_bind_eq_findSome?, ← List.getLast?_filter]

end Summary

/-! ### From calls to lines -/

theorem filterMap_emissions {g : Call Bar → Option LoaderFailure}
    (hg : ∀ (h : LoaderHealthReporter) (call : Call Bar),
      (call.perform h).2.filterMap (fun _ => g call) = (g call).toList)
    (h : LoaderHealthReporter) (calls : List (Call Bar)) :
    (emissions h calls).filterMap (fun e => g e.call) = calls.filterMap g := by
  induction calls generalizing h with
  | nil => rfl
  | cons call calls ih =>
      have hcall : (call.perform h).2.filterMap ((fun e : Emission Bar => g e.call) ∘ fun payload =>
          ⟨call, payload⟩) = (g call).toList := hg h call
      rw [emissions, List.filterMap_append, List.filterMap_map, ih, hcall, List.filterMap_cons]
      cases g call <;> rfl

/-- Every failing call prints one payload. -/
theorem filterMap_knownFailure? (h : LoaderHealthReporter) (call : Call Bar) :
    (call.perform h).2.filterMap (fun _ => knownFailure? call) = (knownFailure? call).toList := by
  cases call with
  | loaderFailed errorClass emittedAt => rfl
  | _ => simp [knownFailure?]

/-- The failures of the calls are those of the lines. -/
theorem LoaderLog.filterMap_lines {host : Host} {runs : List (LoaderRun Bar)} (log : LoaderLog host runs)
    {g : Call Bar → Option LoaderFailure}
    (hg : ∀ (h : LoaderHealthReporter) (call : Call Bar),
      (call.perform h).2.filterMap (fun _ => g call) = (g call).toList) :
    log.lines.filterMap (fun l => g l.emission.call) = (runs.flatMap LoaderRun.calls).filterMap g := by
  have hlines : log.lines.filterMap (fun l => g l.emission.call) =
      (log.lines.map LoaderLine.emission).filterMap fun e => g e.call := by
    rw [List.filterMap_map]
    rfl
  rw [hlines, log.complete, List.filterMap_flatMap, List.filterMap_flatMap]
  exact congrArg runs.flatMap (funext fun r => filterMap_emissions hg r.reporter r.calls)

theorem knownFailure?_of_not {call : Call Bar} (h : ¬ IsCommitFailed call) :
    knownFailure? call = failure? call := by
  cases call with
  | commitFailed failure duration emittedAt => exact absurd trivial h
  | _ => rfl

theorem length_knownFailure_le (calls : List (Call Bar)) :
    (calls.filterMap knownFailure?).length ≤ (calls.filterMap failure?).length := by
  induction calls with
  | nil => exact Nat.le_refl _
  | cons call calls ih =>
      cases call with
      | commitFailed failure duration emittedAt =>
          simp only [List.filterMap_cons, failure?, knownFailure?, List.length_cons]
          omega
      | loaderFailed errorClass emittedAt =>
          simp only [List.filterMap_cons, failure?, knownFailure?, List.length_cons]
          omega
      | _ => exact ih

/-- A failed commit is missing from what the exporter knows. -/
theorem length_knownFailure_iff (calls : List (Call Bar)) :
    (calls.filterMap knownFailure?).length = (calls.filterMap failure?).length ↔
      ∀ call ∈ calls, ¬ IsCommitFailed call := by
  induction calls with
  | nil => simp
  | cons call calls ih =>
      rw [List.forall_mem_cons, ← ih]
      cases call with
      | commitFailed failure duration emittedAt =>
          have hle := length_knownFailure_le calls
          simp only [List.filterMap_cons, failure?, knownFailure?, List.length_cons, IsCommitFailed,
            not_true, false_and, iff_false]
          omega
      | loaderFailed errorClass emittedAt =>
          simp [failure?, knownFailure?, IsCommitFailed]
      | _ => simp [List.filterMap_cons, failure?, knownFailure?, IsCommitFailed]

theorem call_mem_of_emission {h : LoaderHealthReporter} {calls : List (Call Bar)} {e : Emission Bar}
    (hmem : e ∈ emissions h calls) : e.call ∈ calls := by
  induction calls generalizing h with
  | nil => cases hmem
  | cons call calls ih =>
      rcases List.mem_append.mp hmem with hnow | hlater
      · obtain ⟨payload, _, rfl⟩ := List.mem_map.mp hnow
        exact List.mem_cons_self
      · exact List.mem_cons_of_mem _ (ih hlater)

theorem LoaderLog.call_mem {host : Host} {runs : List (LoaderRun Bar)} (log : LoaderLog host runs)
    {l : LoaderLine host Bar} (hl : l ∈ log.lines) :
    l.emission.call ∈ runs.flatMap LoaderRun.calls := by
  obtain ⟨r, hr, hemission⟩ := log.exists_run hl
  exact List.mem_flatMap.mpr ⟨r, hr, call_mem_of_emission hemission⟩

/-! ### What is reported -/

theorem text_of_ofText? {text : String} {name : LoaderEventName}
    (h : LoaderEventName.ofText? text = some name) : name.text = text := by
  have hfound := List.find?_some (p := fun name : LoaderEventName => name.text == text) h
  exact eq_of_beq hfound

/-- A line whose failure the exporter knows is one its filter asks for. -/
theorem selects_of_knownFailure (service : Filter.Service) {host : Host} {l : LoaderLine host Bar}
    (h : Printed l.emission.call l.emission.payload)
    (hknown : (knownFailure? l.emission.call).isSome) :
    Dashboard.loaderFailuresTest.selects service l.entry = true := by
  obtain ⟨h, state, event, level, extra, emittedAt, hpayload, _, hextra, hname⟩ := h
  obtain ⟨f, hf⟩ := Option.isSome_iff_exists.mp hknown
  obtain ⟨name, hofText, hfailure⟩ := Option.bind_eq_some_iff.mp (hname.trans hf)
  have hevent : f.event = event := by
    have htext := text_of_ofText? hofText
    cases name with
    | failure g =>
        cases hfailure
        exact htext
    | _ => cases hfailure
  have hvalue : Filter.valueAt ["jsonPayload", "fields", "event"] l.entry = some (.str event) := by
    rw [LoaderLine.entry, hpayload]
    exact congrArg (fun value => value.bind some) (lookup_event h state event hextra)
  have hselects : Filter.selects service (Dashboard.eventIs f.event) l.entry = true := by
    simp only [Dashboard.eventIs, Filter.selects, hvalue, hevent, service.sameText_self]
  have hmem : f ∈ LoaderFailure.all := by
    cases f <;> simp [LoaderFailure.all]
  rw [Dashboard.loaderFailuresTest_eq]
  exact Filter.selects_any.mpr ⟨_, List.mem_map_of_mem hmem, hselects⟩

/-- The failures of the runs are counted, named, alerted and asked for. -/
structure Reported (service : Filter.Service) {host : Host} {runs : List (LoaderRun Bar)}
    (log : LoaderLog host runs) (readings : Readings) (loader : LoaderSummary) : Prop where
  count : loader.failureCount = (failures runs).length
  last : log.lines.Pairwise (fun a b => a.at_.micros ≤ b.at_.micros) →
    loader.lastFailureCode = (failures runs).getLast?
  alerts : readings.alerts.map alertParts = (failures runs).map fun f => (.loader, .error, .failure f)
  selected : ∀ l ∈ log.lines, (failure? l.emission.call).isSome →
    Dashboard.loaderFailuresTest.selects service l.entry = true

/-- A log of loader runs is summarized, and a document made of it whenever the market's
state and health can be told; the failures of the runs are reported exactly when none of
them is a failed commit. -/
theorem failures_reported_iff (service : Filter.Service) (host : Host) {runs : List (LoaderRun Bar)}
    (log : LoaderLog host runs) (settings : DashboardSettings) (now : Utc) :
    ∃ readings loader, host.readEntries now log.entries = .ok readings ∧
      host.loaderSummary readings.sorted.loaderEvents settings.historyLimit = .ok loader ∧
      (∀ inputs doc, host.buildSnapshot log.entries settings now inputs = .ok doc →
        doc.loader = loader ∧ doc.alerts = readings.sorted.alerts.take 20) ∧
      (Returns (host.marketState now) → settings.Usable →
        Returns (host.buildSnapshot log.entries settings now Inputs.none)) ∧
      (Reported service log readings loader ↔
        ∀ call ∈ runs.flatMap LoaderRun.calls, ¬ IsCommitFailed call) := by
  obtain ⟨rs, hread, hreads⟩ := readEntries_lines now fun l hl => log.printed hl
  have hperm := List.perm_insertionSort Dashboard.LoaderEvent.Le (rs.filterMap Reading.loader)
  have hreadable : ∀ e ∈ (Readings.of rs).sorted.loaderEvents, e.Readable host ∧
      e.process.nesting = 0 := fun e he => readable_of_readings hreads e (hperm.mem_iff.mp he)
  have hsearch : host.Searchable (Readings.of rs).sorted.loaderEvents :=
    Dashboard.searchable_of_nesting fun e he => (hreadable e he).2 ▸ Nat.zero_le _
  obtain ⟨loader, hloader⟩ := Dashboard.loaderSummary_returns hsearch
    (fun e he => (hreadable e he).1) settings.historyLimit
  obtain ⟨hcount, hlast⟩ := loaderSummary_failures hloader
  have hknown := (failures_of_readings hreads).trans (log.filterMap_lines filterMap_knownFailure?)
  have hcount : loader.failureCount =
      ((runs.flatMap LoaderRun.calls).filterMap knownFailure?).length := by
    rw [hcount, ← hknown]
    exact (hperm.filterMap _).length_eq
  refine ⟨Readings.of rs, loader, hread, hloader, ?_, ?_, ?_⟩
  · intro inputs doc hdoc
    obtain ⟨_, _, readings, _, _, _, _, _, hread', hloader', _, _, _, rfl⟩ :=
      Dashboard.buildSnapshot_eq_ok.mp hdoc
    obtain rfl := Except.ok.inj (hread.symm.trans hread')
    exact ⟨Except.ok.inj (hloader'.symm.trans hloader), rfl⟩
  · intro hmarket husable
    refine Dashboard.buildSnapshot_returns now hmarket hread hloader (.inl ?_) husable
    have hnone : (Readings.of rs).sorted.extractorEvents = [] :=
      congrArg (List.insertionSort Dashboard.ExtractorEvent.Le) (extractor_of_readings hreads)
    rw [hnone]
    rfl
  · constructor
    · intro h
      exact (length_knownFailure_iff _).mp (hcount.symm.trans h.count)
    · intro hno
      have hall : (runs.flatMap LoaderRun.calls).filterMap knownFailure? = failures runs :=
        List.filterMap_congr fun call hcall => knownFailure?_of_not (hno call hcall)
      refine ⟨by rw [hcount, hall], ?_, ?_, ?_⟩
      · intro hordered
        have hsorted : (Readings.of rs).sorted.loaderEvents = rs.filterMap Reading.loader :=
          List.Pairwise.insertionSort_eq (ordered_of_readings hreads hordered)
        rw [hlast, hsorted, hknown, hall]
      · rw [← hall, ← log.filterMap_lines filterMap_knownFailure?]
        exact alerts_of_readings hreads
      · intro l hl hfailure
        have hknown := knownFailure?_of_not (hno _ (log.call_mem hl))
        exact selects_of_knownFailure service (log.printed hl) (hknown ▸ hfailure)

/-! ### A commit that conflicts with another writer's -/

/-- 2026-08-29T11:59:00Z. -/
def failedAt : Utc := Dashboard.minuteToNoon

/-- A process whose only commit fails. -/
def conflictRun : LoaderRun Unit where
  reporter := ⟨LOADER_TOPIC, Duration.ofSeconds 30, by decide, Duration.ofSeconds 900, by decide,
    1788004000000000000, [], none, none, none, none, none, none, false, none⟩
  calls := [.commitFailed (.icebergCommitFailed "org.apache.iceberg.exceptions.CommitFailedException")
    (Duration.ofSeconds 2) 1788004740000000000]
  created := ⟨Duration.ofSeconds 30, Duration.ofSeconds 900, 1788004000000000000, rfl⟩

def conflictLog : LoaderLog Dashboard.summerHost [conflictRun] where
  lines := conflictRun.emissions.map fun e =>
    ⟨e, "2026-08-29T11:59:00Z", failedAt, Dashboard.parseUtc_minuteToNoon⟩
  complete := by
    rw [List.map_map]
    exact (List.map_id _).trans (List.append_nil _).symm

/-- Texts are the same when they are equal. -/
def exactService : Filter.Service := ⟨(· == ·), beq_self_eq_true, fun _ _ => true, fun _ _ => true⟩

theorem commitFailed_unreported : failures [conflictRun] = [.icebergCommitFailed] ∧
    (∀ entry ∈ conflictLog.entries,
      Dashboard.loaderFailuresTest.selects exactService entry = false) ∧
    ∃ doc, Dashboard.summerHost.buildSnapshot conflictLog.entries (.default "p") Dashboard.saturdayNoon
      .none = .ok doc ∧ doc.loader.failureCount = 0 ∧ doc.loader.lastFailureCode = none ∧
      doc.alerts = [] := by
  refine ⟨rfl, ?_, _, rfl, rfl, rfl, rfl⟩
  intro entry hentry
  obtain rfl := List.mem_singleton.mp hentry
  decide

end Lakehouse.Contract
