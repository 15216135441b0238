/-
`_extractor_summary` and `_loader_summary`: what is shown of the events, which
are in chronological order.

* `extractorSummary` — the newest metrics event and what explains its end.
* `commitStep` — the map of started commits that have no outcome yet.
* `Host.latestHeartbeat` — the newest heartbeat of the newest process, with the
  recursion limit of `==`.
* `Host.loaderSummary` — that heartbeat, the newest commit, failures, and the
  commit history.
-/

import Lakehouse.Dashboard.Events
import Lakehouse.Lib.Result

namespace Lakehouse.Dashboard

/-- `_integer`. -/
def integer : Json → Option Whole
  | .int n => some (.int n)
  | .bool b => some (.bool b)
  | _ => none

/-- `xs[start:]`; a negative start counts from the end. -/
def sliceFrom {α : Type} (xs : List α) (start : Int) : List α :=
  xs.drop (if start < 0 then (xs.length + start).toNat else start.toNat)

/-- The last element with a property, `next(x for x in reversed(xs) if p(x))`. -/
def findLast {α : Type} (p : α → Bool) (xs : List α) : Option α := xs.reverse.find? p

/-! ### Extractor -/

def ExtractorEvent.isFinal (e : ExtractorEvent) : Bool := e.message == "final metrics"

def ExtractorEvent.isMetrics (e : ExtractorEvent) : Bool := e.message == "metrics" || e.isFinal

def ExtractorEvent.isIdleShutdown (e : ExtractorEvent) : Bool := e.message == idleMessage

/-- `_extractor_summary`. -/
def extractorSummary (events : List ExtractorEvent) : ExtractorSummary :=
  let latest := (events.filter ExtractorEvent.isMetrics).getLast?
  -- `final is latest`: the newest final event is the newest metrics event
  let currentFinal := latest.filter ExtractorEvent.isFinal
  let shutdown := findLast ExtractorEvent.isIdleShutdown events
  let snapshot := (latest.map ExtractorEvent.snapshot).getD []
  { status := if currentFinal.isSome then .cleanShutdown
      else if latest.isSome then .observed else .noRecentSession
    lastEventUtc := events.getLast?.map fun e => .of e.at_
    lastBarUtc := dictGet snapshot "last_message_ts"
    messagesReceived := integer (dictGet snapshot "messages_received")
    messagesSent := integer (dictGet snapshot "messages_sent")
    deliveryFailures := integer (dictGet snapshot "delivery_failures")
    errors := integer (dictGet snapshot "errors")
    finalMetricsAtUtc := currentFinal.map fun e => .of e.at_
    idleWindow := currentFinal.isSome && shutdown.isSome }

/-! ### Loader -/

/-- `_optional_utc`. Only a `ValueError` is caught. -/
def Host.optionalUtc (host : Host) (value : Json) : Py (Option UtcText) :=
  match value with
  | .str text =>
      match host.parseUtc text with
      | .ok t => .ok (some (.of t))
      | .error e => if e.isValueError then .ok none else .error e
  | _ => .ok none

/-- `_loader_timestamp`. -/
def Host.loaderTimestamp (host : Host) (value : Json) (fallback : Utc) : Py UtcText := do
  let text ← host.optionalUtc value
  return text.getD (.of fallback)

/-- One row of `_loader_partitions`, if all its numbers are integers. -/
def loaderPartition (item : Json) : Option PartitionRow :=
  match item with
  | .obj d => do
      let partition ← integer (dictGet d "partition")
      let committed ← integer (dictGetOr d "committedOffset" (dictGet d "committed_offset"))
      let endOffset ← integer (dictGetOr d "endOffset" (dictGet d "end_offset"))
      let lag ← integer (dictGetOr d "lagRecords" (dictGet d "lag_records"))
      some ⟨partition, committed, endOffset, lag⟩
  | _ => none

/-- `_loader_partitions`. -/
def loaderPartitions (value : Json) : List PartitionRow :=
  match value with
  | .arr items => items.filterMap loaderPartition
  | _ => []

/-- The process an event belongs to. -/
def LoaderEvent.process (e : LoaderEvent) : Json := dictGet e.fields "process_started_at_utc"

/-- The commits of the history so far, and the started ones by process. -/
structure History where
  pending : List (String × LoaderEvent)
  commits : List Commit

/-- The element of `recent_commits` for a success. -/
def Host.commitOf (host : Host) (started : Option LoaderEvent) (e : LoaderEvent) : Py Commit := do
  let startedFields := (started.map LoaderEvent.fields).getD []
  let atUtc ← host.loaderTimestamp (dictGet e.fields "last_commit_at_utc") e.at_
  return ⟨atUtc, integer (dictGet startedFields "batch_bars"),
    integer (dictGet startedFields "batch_source_records"),
    integer (dictGet e.fields "durable_commit_total_duration_ms")⟩

/-- The body of the commit loop. -/
def Host.commitStep (host : Host) (h : History) (e : LoaderEvent) : Py History :=
  match e.process with
  | .str process =>
      let others := h.pending.filter fun p => p.1 != process
      match e.event with
      | .commitStarted => .ok { h with pending := (process, e) :: others }
      | .commitSucceeded => do
          let commit ← host.commitOf (h.pending.lookup process) e
          return ⟨others, h.commits ++ [commit]⟩
      | .failure _ => .ok { h with pending := others }
      | .heartbeat => .ok h
  | _ => .ok h

/-- The first heartbeat of a process. -/
def Host.findHeartbeat (host : Host) (process : Json) : List LoaderEvent → Py (Option LoaderEvent)
  | [] => .ok none
  | e :: rest => do
      if e.event = .heartbeat then
        if ← equalWithin e.process process host.eqDepth then return some e
        else host.findHeartbeat process rest
      else host.findHeartbeat process rest

/-- `latest_heartbeat`: the newest heartbeat of the process of the newest event. -/
def Host.latestHeartbeat (host : Host) (events : List LoaderEvent) : Py (Option LoaderEvent) :=
  match events.reverse with
  | [] => .ok none
  | latest :: older =>
      -- its own process id is one object with `latest_process`: `==` does not go into its items
      if latest.event = .heartbeat ∧ equal latest.process latest.process then .ok (some latest)
      else host.findHeartbeat latest.process older

def latestSuccess (events : List LoaderEvent) : Option LoaderEvent :=
  findLast (fun e => e.event == .commitSucceeded) events

/-- `a or b`. -/
def orElse (a b : Json) : Json := if truthy a then a else b

def fieldsOf (e : Option LoaderEvent) : Dict := (e.map LoaderEvent.fields).getD []

def textOf : Json → Option String
  | .str s => some s
  | _ => none

/-- `a if a is not None else b`. -/
def unlessNull (a b : Json) : Json :=
  match a with
  | .null => b
  | a => a

/-- `LOG_QUERY_LIMITS["loader_failures"]`. -/
def failureLimit : Nat := 20

/-- `_loader_summary`, with the heartbeat that was found. -/
def Host.loaderSummaryOf (host : Host) (heartbeat : Option LoaderEvent) (events : List LoaderEvent)
    (limit : Int) : Py LoaderSummary := do
  let failures := events.filter fun e => e.failure?.isSome
  let history ← events.foldlM host.commitStep ⟨[], []⟩
  let current := heartbeat.or events.getLast?
  let currentFields := fieldsOf current
  let successFields := fieldsOf (latestSuccess events)
  let lastCommit :=
    orElse (dictGet successFields "last_commit_at_utc") (dictGet currentFields "last_commit_at_utc")
  let processStartedAtUtc ← host.optionalUtc (dictGet currentFields "process_started_at_utc")
  let lastInputUtc ← host.optionalUtc (dictGet currentFields "last_input_at_utc")
  let lastCommitUtc ← host.optionalUtc lastCommit
  return {
    status := if current.isSome then .observed else .noRecentSignal
    state := textOf (dictGet currentFields "state")
    latestHeartbeatUtc := heartbeat.map fun e => .of e.at_
    processStartedAtUtc
    lastInputUtc
    lastCommitUtc
    lastCommitDurationMs := integer
      (unlessNull (dictGet successFields "durable_commit_total_duration_ms")
        (dictGet currentFields "last_commit_duration_ms"))
    aggregateLagRecords := integer (dictGet currentFields "aggregate_lag_records")
    bufferedBars := integer (dictGet currentFields "buffered_bars")
    bufferedSourceRecords := integer (dictGet currentFields "buffered_source_records")
    partitions := loaderPartitions (dictGet currentFields "partitions")
    failureCount := failures.length
    failureCountIsCapped := failures.length == failureLimit
    lastFailureUtc := failures.getLast?.map fun e => .of e.at_
    lastFailureCode := failures.getLast?.bind LoaderEvent.failure?
    recentCommits := sliceFrom history.commits (-limit) }

/-- `_loader_summary`. -/
def Host.loaderSummary (host : Host) (events : List LoaderEvent) (limit : Int) :
    Py LoaderSummary := do
  let heartbeat ← host.latestHeartbeat events
  host.loaderSummaryOf heartbeat events limit

/-! ### When the loader's events can be summarized -/

/-- A value `_optional_utc` takes without raising. -/
def Host.Readable (host : Host) (value : Json) : Prop := ∃ text, host.optionalUtc value = .ok text

theorem optionalUtc_of_ok {host : Host} {text : String} {t : Utc} (h : host.parseUtc text = .ok t) :
    host.optionalUtc (.str text) = .ok (some (.of t)) := by
  unfold Host.optionalUtc
  simp only [h]

theorem optionalUtc_of_error {host : Host} {text : String} {e : PyError}
    (h : host.parseUtc text = .error e) :
    host.optionalUtc (.str text) = if e.isValueError then .ok none else .error e := by
  unfold Host.optionalUtc
  simp only [h]

theorem Host.readable_null (host : Host) : host.Readable .null := ⟨none, rfl⟩

/-- The three timestamps of an event are readable. -/
structure LoaderEvent.Readable (host : Host) (e : LoaderEvent) : Prop where
  process : host.Readable e.process
  lastInput : host.Readable (dictGet e.fields "last_input_at_utc")
  lastCommit : host.Readable (dictGet e.fields "last_commit_at_utc")

/-- A success of a process. -/
structure LoaderEvent.Succeeds (e : LoaderEvent) : Prop where
  event : e.event = .commitSucceeded
  process : ∃ process, e.process = .str process

theorem commitStep_returns {host : Host} {e : LoaderEvent}
    (h : e.Succeeds → host.Readable (dictGet e.fields "last_commit_at_utc")) (history : History) :
    ∃ next, host.commitStep history e = .ok next := by
  unfold Host.commitStep
  split
  · rename_i process hprocess
    split
    · exact ⟨_, rfl⟩
    · rename_i hevent
      obtain ⟨text, htext⟩ := h ⟨hevent, process, hprocess⟩
      simp only [Host.commitOf, Host.loaderTimestamp, htext]
      exact ⟨_, rfl⟩
    · exact ⟨_, rfl⟩
    · exact ⟨_, rfl⟩
  · exact ⟨_, rfl⟩

theorem history_returns {host : Host} {events : List LoaderEvent}
    (h : ∀ e ∈ events, e.Succeeds → host.Readable (dictGet e.fields "last_commit_at_utc"))
    (history : History) : ∃ last, events.foldlM host.commitStep history = .ok last := by
  induction events generalizing history with
  | nil => exact ⟨history, rfl⟩
  | cons e events ih =>
      obtain ⟨next, hnext⟩ := commitStep_returns (h e List.mem_cons_self) history
      obtain ⟨last, hlast⟩ := ih (fun e he => h e (List.mem_cons_of_mem _ he)) next
      refine ⟨last, ?_⟩
      rw [List.foldlM_cons, hnext]
      exact hlast

/-- A field of the event shown, or of none, has what all events have. -/
theorem dictGet_fieldsOf {P : Json → Prop} (hnull : P .null) {events : List LoaderEvent}
    {e : Option LoaderEvent} (hmem : ∀ x ∈ e, x ∈ events) {name : String}
    (h : ∀ x ∈ events, P (dictGet x.fields name)) : P (dictGet (fieldsOf e) name) := by
  cases e with
  | none => exact hnull
  | some x => exact h x (hmem x rfl)

theorem findLast_mem {α : Type} {p : α → Bool} {xs : List α} {x : α} (h : x ∈ findLast p xs) :
    x ∈ xs :=
  List.mem_reverse.mp (List.mem_of_find?_eq_some h)

end Lakehouse.Dashboard
