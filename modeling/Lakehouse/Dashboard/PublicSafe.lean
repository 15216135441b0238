/-
What of the untrusted inputs reaches the published document.

`PublicText` says which texts may stand at a place of the document: the
exporter's own vocabulary (any set of texts with all it writes itself) anywhere,
the reasons it is given and the four kinds of validated text each where it is
checked. `PublicSafe` says that a document has no other string in it; its member
names are the exporter's own.

* `*.publicSafe` — every section but two is safe for any input.
* `buildSnapshot_publicSafe_iff` — the document is safe exactly if the two
  fields that are passed on as they are found, the newest bar time and the
  state of the event shown for the loader, are.
-/

import Lakehouse.Dashboard.BuildSnapshot
import Lakehouse.Dashboard.LatestHeartbeat
import Lakehouse.Lib.Recency

namespace Lakehouse.Dashboard

open Recency (Newest)

/-! ### Public texts -/

/-- The member names of the document. -/
def memberNames : List String :=
  ["schema_version", "generated_at_utc", "market", "state", "next_expected_open_utc", "health",
    "status", "reasons", "extractor", "last_event_utc", "last_bar_utc", "messages_received",
    "messages_sent", "delivery_failures", "errors", "final_metrics_at_utc", "shutdown_reason",
    "loader", "latest_heartbeat_utc", "process_started_at_utc", "last_input_utc", "last_commit_utc",
    "last_commit_duration_ms", "aggregate_lag_records", "buffered_bars", "buffered_source_records",
    "partitions", "partition", "committed_offset", "end_offset", "lag_records", "failure_count",
    "failure_count_is_capped", "last_failure_utc", "last_failure_code", "recent_commits", "at_utc",
    "bars", "source_records", "duration_ms", "table", "reason", "last_metadata_update_utc",
    "current_snapshot_commit_utc", "latest_operation", "latest_added_records",
    "latest_added_data_files", "latest_added_files_size_bytes", "total_records", "total_data_files",
    "total_files_size_bytes", "average_rows_per_data_file", "average_data_file_size_bytes",
    "total_delete_files", "total_position_deletes", "total_equality_deletes",
    "snapshot_history_count", "metadata_history_count", "costs", "currency", "aggregated_at_utc",
    "source_exported_at_utc", "today_net_cost", "seven_day_net_cost", "month_to_date_net_cost",
    "daily_costs", "day_utc", "net_cost", "top_services", "service_name", "alerts", "component",
    "severity", "code"]

/-- The values the exporter writes itself. -/
def ownValues : List String :=
  ["weekend", "pre_open", "market_open", "settling", "closed", "healthy", "warning", "unhealthy",
    "unknown", "missing_extractor_bar", "missing_loader_commit", "missing_loader_heartbeat",
    "stale_extractor_bar", "stale_loader_commit", "stale_loader_heartbeat", "aging_extractor_bar",
    "aging_loader_commit", "aging_loader_heartbeat", "awaiting_clean_shutdown", "no_recent_session",
    "loader_stalled", "recent_error", "clean_shutdown", "observed", "idle_window",
    "no_recent_signal", "loader_data_file_write_failed", "loader_iceberg_commit_failed",
    "loader_iceberg_commit_state_unknown", "loader_offset_commit_failed", "loader_failed",
    "extractor", "loader", "ERROR", "WARNING", "extractor_delivery_failure",
    "extractor_authentication", "extractor_commit_failure", "extractor_warning",
    "loader_delivery_failure", "loader_authentication", "loader_commit_failure", "loader_warning",
    "available", "unavailable", "invalid_metadata", "missing_current_snapshot",
    "missing_snapshot_summary", "invalid_snapshot", "append", "overwrite", "replace", "delete",
    "other"]

def vocabulary : List String := memberNames ++ ownValues

/-- Where a timestamp is shown. -/
def timestampPlaces : List (List Json.Step) :=
  [[.member "generated_at_utc"], [.member "market", .member "next_expected_open_utc"],
    [.member "extractor", .member "last_event_utc"],
    [.member "extractor", .member "last_bar_utc"],
    [.member "extractor", .member "final_metrics_at_utc"],
    [.member "loader", .member "latest_heartbeat_utc"],
    [.member "loader", .member "process_started_at_utc"],
    [.member "loader", .member "last_input_utc"], [.member "loader", .member "last_commit_utc"],
    [.member "loader", .member "last_failure_utc"],
    [.member "loader", .member "recent_commits", .item, .member "at_utc"],
    [.member "table", .member "last_metadata_update_utc"],
    [.member "table", .member "current_snapshot_commit_utc"],
    [.member "costs", .member "aggregated_at_utc"],
    [.member "costs", .member "source_exported_at_utc"],
    [.member "alerts", .item, .member "at_utc"]]

/-- A text that may be published at `place`, where `Lit` is what counts as the exporter's
own. -/
inductive PublicText (Lit : String → Prop) (inputs : Inputs) (place : List Json.Step) :
    String → Prop where
  | literal {s : String} : Lit s → PublicText Lit inputs place s
  | tableReason : place = [.member "table", .member "reason"] →
      PublicText Lit inputs place inputs.tableUnavailableReason
  | costReason : place = [.member "costs", .member "reason"] →
      PublicText Lit inputs place inputs.costUnavailableReason
  | timestamp (t : Utc) : place ∈ timestampPlaces → PublicText Lit inputs place (utcText t)
  | currency {s : String} : place = [.member "costs", .member "currency"] → isCurrency s →
      PublicText Lit inputs place s
  | day {s : String} :
      place = [.member "costs", .member "daily_costs", .item, .member "day_utc"] →
        (fromisoformat s).isSome → PublicText Lit inputs place s
  | serviceName {s : String} :
      place = [.member "costs", .member "top_services", .item, .member "service_name"] →
        isServiceName s → PublicText Lit inputs place s

/-- Every string of a value at `place` may be published where it stands. -/
def PublicSafe (Lit : String → Prop) (inputs : Inputs) (place : List Json.Step) (j : Json) : Prop :=
  j.AllLeavesAt (fun at_ leaf => ∀ s, leaf = .str s → PublicText Lit inputs at_ s) place ∧
    j.AllNames Lit

section PublicSafe

variable {Lit : String → Prop} {inputs : Inputs} {place : List Json.Step}

@[simp] theorem publicSafe_null : PublicSafe Lit inputs place .null := by simp [PublicSafe]

@[simp] theorem publicSafe_bool {b : Bool} : PublicSafe Lit inputs place (.bool b) := by
  simp [PublicSafe]

@[simp] theorem publicSafe_int {n : Int} : PublicSafe Lit inputs place (.int n) := by
  simp [PublicSafe]

@[simp] theorem publicSafe_float {x : Float} : PublicSafe Lit inputs place (.float x) := by
  simp [PublicSafe]

@[simp] theorem publicSafe_str {s : String} :
    PublicSafe Lit inputs place (.str s) ↔ PublicText Lit inputs place s := by simp [PublicSafe]

@[simp] theorem publicSafe_arr {items : List Json} :
    PublicSafe Lit inputs place (.arr items) ↔
      ∀ j ∈ items, PublicSafe Lit inputs (place ++ [.item]) j := by
  simp [PublicSafe, forall_and]

@[simp] theorem publicSafe_obj {fields : List (String × Json)} :
    PublicSafe Lit inputs place (.obj fields) ↔
      ∀ f ∈ fields, Lit f.1 ∧ PublicSafe Lit inputs (place ++ [.member f.1]) f.2 := by
  simp only [PublicSafe, Json.allLeavesAt_obj, Json.allNames_obj, ← forall₂_and]
  constructor
  · intro h f hf
    obtain ⟨hleaves, hname, hnames⟩ := h f hf
    exact ⟨hname, hleaves, hnames⟩
  · intro h f hf
    obtain ⟨hname, hleaves, hnames⟩ := h f hf
    exact ⟨hleaves, hname, hnames⟩

@[simp] theorem publicSafe_orNull {α : Type} {toJson : α → Json} {x : Option α} :
    PublicSafe Lit inputs place (orNull toJson x) ↔
      ∀ y ∈ x, PublicSafe Lit inputs place (toJson y) := by
  cases x <;> simp [orNull]

end PublicSafe

/-! ### The sections -/

section Sections

variable {Lit : String → Prop} (hLit : ∀ s ∈ vocabulary, Lit s) {inputs : Inputs}
  {place : List Json.Step}

include hLit

theorem own_public {s : String} (h : s ∈ ownValues) : PublicText Lit inputs place s :=
  .literal (hLit s (List.mem_append_right _ h))

omit hLit in
theorem UtcText.publicSafe (s : UtcText) (hplace : place ∈ timestampPlaces) :
    PublicSafe Lit inputs place s.toJson := by
  obtain ⟨t, ht⟩ := s.written
  rw [UtcText.toJson, publicSafe_str, ht]
  exact .timestamp t hplace

omit hLit in
@[simp] theorem Whole.publicSafe (n : Whole) : PublicSafe Lit inputs place n.toJson := by
  cases n <;> simp [Whole.toJson]

/-- A record is safe when its values are. -/
theorem publicSafe_record {fields : List (String × Json)}
    (hnames : ∀ name ∈ fields.map Prod.fst, name ∈ memberNames) :
    PublicSafe Lit inputs place (.obj fields) ↔
      ∀ f ∈ fields, PublicSafe Lit inputs (place ++ [.member f.1]) f.2 := by
  have hpublic : ∀ f ∈ fields, Lit f.1 := fun f hf =>
    hLit f.1 (List.mem_append_left _ (hnames f.1 (List.mem_map_of_mem hf)))
  rw [publicSafe_obj]
  exact forall₂_congr fun f hf => and_iff_right (hpublic f hf)

theorem HealthReason.public (r : HealthReason) : PublicText Lit inputs place r.text := by
  apply own_public hLit
  cases r with
  | missing s => cases s <;> decide
  | stale s => cases s <;> decide
  | aging s => cases s <;> decide
  | awaitingCleanShutdown => decide
  | noRecentSession => decide
  | loaderStalled => decide
  | recentError => decide

theorem Health.publicSafe (h : Health) : PublicSafe Lit inputs [.member "health"] h.toJson := by
  have hstatus : ∀ place, PublicText Lit inputs place h.status.text := fun _ =>
    own_public hLit (by cases h.status <;> decide)
  rw [Health.toJson, publicSafe_record hLit (by simp [memberNames])]
  simpa [hstatus] using fun r _ => HealthReason.public hLit r

theorem AlertCode.public (c : AlertCode) : PublicText Lit inputs place c.text := by
  apply own_public hLit
  cases c with
  | deliveryFailure c => cases c <;> decide
  | authentication c => cases c <;> decide
  | commitFailure c => cases c <;> decide
  | warning c => cases c <;> decide
  | failure f => cases f <;> decide

theorem Alert.publicSafe (a : Alert) :
    PublicSafe Lit inputs [.member "alerts", .item] a.toJson := by
  have hcomponent : ∀ place, PublicText Lit inputs place a.component.text := fun _ =>
    own_public hLit (by cases a.component <;> decide)
  have hseverity : ∀ place, PublicText Lit inputs place a.severity.text := fun _ =>
    own_public hLit (by cases a.severity <;> decide)
  rw [Alert.toJson, publicSafe_record hLit (by simp [memberNames])]
  simp (disch := decide) [UtcText.publicSafe, hcomponent, hseverity, AlertCode.public hLit]

/-- The bar time is shown as it is found. -/
theorem ExtractorSummary.publicSafe_iff (s : ExtractorSummary) :
    PublicSafe Lit inputs [.member "extractor"] s.toJson ↔
      PublicSafe Lit inputs [.member "extractor", .member "last_bar_utc"] s.lastBarUtc := by
  have hstatus : ∀ place, PublicText Lit inputs place s.status.text := fun _ =>
    own_public hLit (by cases s.status <;> decide)
  have hreason : ∀ place, PublicSafe Lit inputs place
      (if s.idleWindow then .str "idle_window" else .null) := by
    intro place
    split
    · exact publicSafe_str.mpr (own_public hLit (by decide))
    · exact publicSafe_null
  rw [ExtractorSummary.toJson, publicSafe_record hLit (by simp [memberNames])]
  simp (disch := decide) [UtcText.publicSafe, hstatus, hreason]

theorem Commit.publicSafe (c : Commit) :
    PublicSafe Lit inputs [.member "loader", .member "recent_commits", .item] c.toJson := by
  rw [Commit.toJson, publicSafe_record hLit (by simp [memberNames])]
  simp (disch := decide) [UtcText.publicSafe]

theorem PartitionRow.publicSafe (r : PartitionRow) :
    PublicSafe Lit inputs place r.toJson := by
  rw [PartitionRow.toJson, publicSafe_record hLit (by simp [memberNames])]
  simp

theorem public_loaderFailureCode (f : LoaderFailure) :
    PublicText Lit inputs place (loaderFailureCode f) :=
  own_public hLit (by cases f <;> decide)

/-- The loader's state is shown as it is found, if it is a string. -/
theorem LoaderSummary.publicSafe_iff (s : LoaderSummary) :
    PublicSafe Lit inputs [.member "loader"] s.toJson ↔
      ∀ state ∈ s.state, PublicText Lit inputs [.member "loader", .member "state"] state := by
  have hstatus : ∀ place, PublicText Lit inputs place s.status.text := fun _ =>
    own_public hLit (by cases s.status <;> decide)
  rw [LoaderSummary.toJson, publicSafe_record hLit (by simp [memberNames])]
  simp (disch := decide) [UtcText.publicSafe, hstatus, PartitionRow.publicSafe hLit,
    Commit.publicSafe hLit, public_loaderFailureCode hLit]

theorem TableSummary.publicSafe_iff (s : TableSummary) :
    PublicSafe Lit inputs [.member "table"] s.toJson ↔
      ∀ reason ∈ s.reason, PublicText Lit inputs [.member "table", .member "reason"] reason := by
  have hstatus : ∀ place, PublicText Lit inputs place s.status.text := fun _ =>
    own_public hLit (by cases s.status <;> decide)
  have hoperation : ∀ place, ∀ o : IcebergOperation, PublicText Lit inputs place o.text :=
    fun _ o => own_public hLit (by cases o <;> decide)
  rw [TableSummary.toJson, publicSafe_record hLit (by simp [memberNames])]
  simp (disch := decide) [UtcText.publicSafe, hstatus, hoperation, natJson]

theorem DailyCost.publicSafe (c : DailyCost) :
    PublicSafe Lit inputs [.member "costs", .member "daily_costs", .item] c.toJson := by
  have hday : PublicText Lit inputs
      [.member "costs", .member "daily_costs", .item, .member "day_utc"] c.dayUtc.text :=
    .day rfl c.dayUtc.accepted
  rw [DailyCost.toJson, publicSafe_record hLit (by simp [memberNames])]
  simp [hday]

theorem ServiceCost.publicSafe (c : ServiceCost) :
    PublicSafe Lit inputs [.member "costs", .member "top_services", .item] c.toJson := by
  have hname : PublicText Lit inputs
      [.member "costs", .member "top_services", .item, .member "service_name"]
      c.serviceName.text := .serviceName rfl c.serviceName.accepted
  rw [ServiceCost.toJson, publicSafe_record hLit (by simp [memberNames])]
  simp [hname]

theorem CostSummary.publicSafe_iff (s : CostSummary) :
    PublicSafe Lit inputs [.member "costs"] s.toJson ↔
      ∀ reason ∈ s.reason, PublicText Lit inputs [.member "costs", .member "reason"] reason := by
  have hstatus : ∀ place, PublicText Lit inputs place s.status.text := fun _ =>
    own_public hLit (by cases s.status <;> decide)
  have hcurrency : ∀ c : Currency,
      PublicText Lit inputs [.member "costs", .member "currency"] c.text := fun c =>
    .currency rfl c.accepted
  rw [CostSummary.toJson, publicSafe_record hLit (by simp [memberNames])]
  simp (disch := decide) [UtcText.publicSafe, hstatus, hcurrency, DailyCost.publicSafe hLit,
    ServiceCost.publicSafe hLit]

/-- The fields of a document that no check stands in front of. -/
theorem Snapshot.publicSafe_iff (s : Snapshot) :
    PublicSafe Lit inputs [] s.toJson ↔
      PublicSafe Lit inputs [.member "extractor", .member "last_bar_utc"]
          s.extractor.lastBarUtc ∧
        (∀ state ∈ s.loader.state,
          PublicText Lit inputs [.member "loader", .member "state"] state) ∧
        (∀ reason ∈ s.table.reason,
          PublicText Lit inputs [.member "table", .member "reason"] reason) ∧
        ∀ reason ∈ s.costs.reason,
          PublicText Lit inputs [.member "costs", .member "reason"] reason := by
  have hstate : ∀ place, PublicText Lit inputs place s.marketState.text := fun _ =>
    own_public hLit (by cases s.marketState <;> decide)
  have hmarket : PublicSafe Lit inputs [.member "market"] (.obj [
      ("state", .str s.marketState.text),
      ("next_expected_open_utc", s.nextExpectedOpenUtc.toJson)]) := by
    rw [publicSafe_record hLit (by simp [memberNames])]
    simp (disch := decide) [hstate, UtcText.publicSafe]
  have hgenerated : PublicSafe Lit inputs [.member "generated_at_utc"] s.generatedAtUtc.toJson :=
    UtcText.publicSafe _ (by decide)
  rw [Snapshot.toJson, publicSafe_record hLit (by simp [memberNames])]
  simp only [List.forall_mem_cons, List.not_mem_nil, false_imp_iff,
    implies_true, and_true, List.nil_append, List.cons_append, publicSafe_int, hgenerated, hmarket,
    Health.publicSafe hLit, ExtractorSummary.publicSafe_iff hLit, LoaderSummary.publicSafe_iff hLit,
    TableSummary.publicSafe_iff hLit, CostSummary.publicSafe_iff hLit, publicSafe_arr, List.mem_map,
    forall_exists_index, and_imp, forall_apply_eq_imp_iff₂, Alert.publicSafe hLit, true_and]

end Sections

/-! ### The two unchecked fields -/

section Unchecked

variable {Lit : String → Prop} {inputs : Inputs}

/-- Where a text is checked, or given. -/
def checkedPlaces : List (List Json.Step) :=
  timestampPlaces ++ [[.member "table", .member "reason"], [.member "costs", .member "reason"],
    [.member "costs", .member "currency"],
    [.member "costs", .member "daily_costs", .item, .member "day_utc"],
    [.member "costs", .member "top_services", .item, .member "service_name"]]

/-- Everywhere else only the exporter's own texts are public. -/
theorem publicText_elsewhere {place : List Json.Step} (hplace : place ∉ checkedPlaces)
    {s : String} : PublicText Lit inputs place s ↔ Lit s := by
  constructor
  · intro h
    have hchecked (h : place ∈ checkedPlaces) : Lit s := absurd h hplace
    cases h with
    | literal h => exact h
    | timestamp t ht => exact hchecked (List.mem_append_left _ ht)
    | tableReason h => exact hchecked (by simp [checkedPlaces, h])
    | costReason h => exact hchecked (by simp [checkedPlaces, h])
    | currency h _ => exact hchecked (by simp [checkedPlaces, h])
    | day h _ => exact hchecked (by simp [checkedPlaces, h])
    | serviceName h _ => exact hchecked (by simp [checkedPlaces, h])
  · exact .literal

theorem publicText_state {s : String} :
    PublicText Lit inputs [.member "loader", .member "state"] s ↔ Lit s :=
  publicText_elsewhere (by decide)

theorem publicText_bar {s : String} :
    PublicText Lit inputs [.member "extractor", .member "last_bar_utc"] s ↔
      (∃ t, s = utcText t) ∨ Lit s := by
  constructor
  · intro h
    cases h with
    | literal h => exact .inr h
    | tableReason hplace => simp at hplace
    | costReason hplace => simp at hplace
    | timestamp t _ => exact .inl ⟨t, rfl⟩
    | currency hplace _ => simp at hplace
    | day hplace _ => simp at hplace
    | serviceName hplace _ => simp at hplace
  · rintro (⟨t, rfl⟩ | h)
    · exact .timestamp t (by decide)
    · exact .literal h

/-- No text is checked below the place of the bar time. -/
theorem publicText_below {s : String} (step : Json.Step) (below : List Json.Step) :
    PublicText Lit inputs (.member "extractor" :: .member "last_bar_utc" :: step :: below) s ↔
      Lit s :=
  publicText_elsewhere (by simp [checkedPlaces, timestampPlaces])

/-- All texts of a value are the exporter's own. -/
def OwnTexts (Lit : String → Prop) (value : Json) : Prop :=
  value.AllLeaves (fun leaf => ∀ s, leaf = .str s → Lit s) ∧ value.AllNames Lit

/-- A bar time that may be published: a timestamp, or nothing but own texts. -/
def PublicBar (Lit : String → Prop) (value : Json) : Prop :=
  (∃ t, value = .str (utcText t)) ∨ OwnTexts Lit value

theorem publicSafe_below {step : Json.Step} {value : Json} :
    PublicSafe Lit inputs [.member "extractor", .member "last_bar_utc", step] value ↔
      OwnTexts Lit value := by
  have hleaves : ∀ below, ∀ leaf : Json, (∀ s, leaf = .str s → PublicText Lit inputs
      ([.member "extractor", .member "last_bar_utc", step] ++ below) s) ↔
        ∀ s, leaf = .str s → Lit s := by
    intro below leaf
    exact forall₂_congr fun s _ => publicText_below step below
  exact and_congr_left' (Json.allLeavesAt_iff hleaves)

theorem publicSafe_bar {value : Json} :
    PublicSafe Lit inputs [.member "extractor", .member "last_bar_utc"] value ↔
      PublicBar Lit value := by
  cases value with
  | str s =>
      rw [publicSafe_str, publicText_bar, PublicBar]
      simp [OwnTexts]
  | arr items =>
      rw [publicSafe_arr]
      simp only [List.cons_append, List.nil_append, publicSafe_below, PublicBar, OwnTexts,
        reduceCtorEq, exists_false, false_or, Json.allLeaves_arr, Json.allNames_arr, forall₂_and]
  | obj fields =>
      rw [publicSafe_obj]
      simp only [List.cons_append, List.nil_append, publicSafe_below, PublicBar, OwnTexts,
        reduceCtorEq, exists_false, false_or, Json.allLeaves_obj, Json.allNames_obj, ← forall₂_and]
      exact forall₂_congr fun f _ => and_left_comm
  | _ => simp [PublicBar, OwnTexts]

end Unchecked

/-! ### Where the unchecked fields come from -/

theorem summarizeTableMetadata_reason {host : Host} {metadata : Json} {given reason : String}
    {table : TableSummary} (h : host.summarizeTableMetadata metadata given = .ok table)
    (hreason : reason ∈ table.reason) : reason = given ∨ reason ∈ ownValues := by
  unfold Host.summarizeTableMetadata at h
  split at h
  · split at h
    · cases h
      cases hreason
      exact .inr (by decide)
    · obtain ⟨found, _, h⟩ := Result.bind_eq_ok.mp h
      split at h
      · cases h
        cases hreason
        exact .inr (by decide)
      · split at h
        · simp only [Host.tableFigures, Result.bind_eq_ok, Result.pure_eq_ok] at h
          obtain ⟨_, _, _, _, _, _, _, _, _, _, _, _, _, _, _, _, _, _, _, _, _, _, _, _, _, _, _, _,
            rfl⟩ := h
          simp at hreason
        · cases h
          cases hreason
          exact .inr (by decide)
    · cases h
      cases hreason
      exact .inr (by decide)
  · cases h
    cases hreason
    exact .inl rfl

theorem summarizeCostSnapshot_reason {snapshot : Json} {now : Utc} {given reason : String}
    {costs : CostSummary} (h : summarizeCostSnapshot snapshot now given = .ok costs)
    (hreason : reason ∈ costs.reason) : reason = given ∨ reason ∈ ownValues := by
  unfold summarizeCostSnapshot at h
  split at h
  · split at h
    · split at h
      · simp only [costFigures, Result.bind_eq_ok] at h
        obtain ⟨_, _, _, _, _, _, _, _, _, _, _, _, h⟩ := h
        split at h
        · cases h
          simp at hreason
        · cases h
          cases hreason
          exact .inr (by decide)
      · cases h
        cases hreason
        exact .inr (by decide)
    · cases h
      cases hreason
      exact .inr (by decide)
  · cases h
    cases hreason
    exact .inl rfl

/-- The time events are sorted by. -/
def ExtractorEvent.time (e : ExtractorEvent) : Int := e.at_.micros

def LoaderEvent.time (e : LoaderEvent) : Int := e.at_.micros

/-- The newest metrics event, of the events in the order they were read. -/
def ShownMetrics (r : Readings) (e : ExtractorEvent) : Prop :=
  Newest ExtractorEvent.time (r.extractorEvents.filter ExtractorEvent.isMetrics) e

/-- The heartbeats of a process. -/
def heartbeatsOf (process : Json) (events : List LoaderEvent) : List LoaderEvent :=
  events.filter (LoaderEvent.isHeartbeatOf process)

/-- The newest heartbeat of the process of the newest event, or else that event. -/
def ShownLoader (r : Readings) (e : LoaderEvent) : Prop :=
  ∃ latest, Newest LoaderEvent.time r.loaderEvents latest ∧
    (Newest LoaderEvent.time (heartbeatsOf latest.process r.loaderEvents) e ∨
      heartbeatsOf latest.process r.loaderEvents = [] ∧ e = latest)

theorem ShownLoader.mem {r : Readings} {e : LoaderEvent} (h : ShownLoader r e) :
    e ∈ r.loaderEvents := by
  obtain ⟨latest, hlatest, hbeat | ⟨-, rfl⟩⟩ := h
  · exact (List.mem_filter.mp hbeat.mem).1
  · exact hlatest.mem

theorem lastBarUtc_sorted (P : Json → Prop) (hnull : P .null) (r : Readings) :
    P (extractorSummary r.sorted.extractorEvents).lastBarUtc ↔
      ∀ e, ShownMetrics r e → P (dictGet e.snapshot "last_message_ts") := by
  have hsort : ∀ a b, ExtractorEvent.Le a b ↔ a.time ≤ b.time := fun _ _ => Iff.rfl
  have hnewest : ∀ e, (r.sorted.extractorEvents.filter ExtractorEvent.isMetrics).getLast? = some e ↔
      ShownMetrics r e := by
    intro e
    rw [Readings.sorted, Recency.filter_insertionSort hsort, Recency.getLast?_insertionSort hsort]
    rfl
  simp only [extractorSummary]
  cases hlatest : (r.sorted.extractorEvents.filter ExtractorEvent.isMetrics).getLast? with
  | none =>
      have hnone : ∀ e, ¬ ShownMetrics r e := by
        intro e he
        rw [← hnewest, hlatest] at he
        cases he
      constructor
      · exact fun _ e he => absurd he (hnone e)
      · exact fun _ => hnull
  | some latest =>
      have hshown := (hnewest latest).mp hlatest
      constructor
      · intro h e he
        rw [he.unique hshown]
        exact h
      · exact fun h => h latest hshown

theorem currentEvent_sorted {r : Readings} {e : LoaderEvent} :
    currentEvent r.sorted.loaderEvents = some e ↔ ShownLoader r e := by
  have hsort : ∀ a b, LoaderEvent.Le a b ↔ a.time ≤ b.time := fun _ _ => Iff.rfl
  have hnewest : ∀ l x, (List.insertionSort LoaderEvent.Le l).getLast? = some x ↔
      Newest LoaderEvent.time l x := fun l x => Recency.getLast?_insertionSort hsort
  simp only [currentEvent, shownHeartbeat, findLast, Readings.sorted]
  cases hlast : (r.loaderEvents.insertionSort LoaderEvent.Le).getLast? with
  | none =>
      rw [List.getLast?_eq_none_iff.mp hlast]
      constructor
      · intro h
        cases h
      · rintro ⟨latest, hlatest, _⟩
        rw [← hnewest, hlast] at hlatest
        cases hlatest
  | some latest =>
      have hlatest := (hnewest _ _).mp hlast
      simp only [Option.map_some, Option.getD_some]
      rw [← List.getLast?_filter, Recency.filter_insertionSort hsort]
      change ((heartbeatsOf latest.process r.loaderEvents).insertionSort LoaderEvent.Le).getLast?.or
        (some latest) = some e ↔ _
      cases hbeats : ((heartbeatsOf latest.process r.loaderEvents).insertionSort
          LoaderEvent.Le).getLast? with
      | none =>
          have hnil : heartbeatsOf latest.process r.loaderEvents = [] := by
            simpa using congrArg List.length (List.getLast?_eq_none_iff.mp hbeats)
          constructor
          · intro h
            cases h
            exact ⟨_, hlatest, .inr ⟨hnil, rfl⟩⟩
          · rintro ⟨latest', hlatest', hbeat | ⟨_, rfl⟩⟩
            · rw [hlatest'.unique hlatest, hnil] at hbeat
              exact absurd hbeat (Recency.not_newest_nil _ _)
            · rw [hlatest'.unique hlatest, Option.none_or]
      | some beat =>
          have hbeat := (hnewest _ _).mp hbeats
          constructor
          · intro h
            cases h
            exact ⟨_, hlatest, .inl hbeat⟩
          · rintro ⟨latest', hlatest', hbeat' | ⟨hnil, _⟩⟩
            · rw [hlatest'.unique hlatest] at hbeat'
              rw [hbeat'.unique hbeat, Option.some_or]
            · rw [hlatest'.unique hlatest] at hnil
              exact absurd (hnil ▸ hbeat) (Recency.not_newest_nil _ _)

theorem state_sorted (P : String → Prop) {host : Host} {r : Readings} {limit : Int}
    {loader : LoaderSummary} (h : host.loaderSummary r.sorted.loaderEvents limit = .ok loader) :
    (∀ state ∈ loader.state, P state) ↔
      ∀ e, ShownLoader r e → ∀ s, dictGet e.fields "state" = .str s → P s := by
  rw [(loaderSummary_shows h).1]
  have htext : ∀ (j : Json) s, s ∈ textOf j ↔ j = .str s := by
    intro j s
    cases j <;> simp [textOf, eq_comm]
  simp only [htext]
  cases hcurrent : currentEvent r.sorted.loaderEvents with
  | none =>
      constructor
      · intro _ e he
        rw [← currentEvent_sorted, hcurrent] at he
        cases he
      · intro _ s hs
        cases hs
  | some current =>
      constructor
      · intro h e he s hs
        rw [← currentEvent_sorted, hcurrent] at he
        cases he
        exact h s hs
      · exact fun h s hs => h current (currentEvent_sorted.mp hcurrent) s hs

/-! ### The published document -/

/-- The document is public-safe exactly if the bar time of the newest metrics event
and the state of the loader event shown are: nothing stands between either and
the document. -/
theorem buildSnapshot_publicSafe_iff {host : Host} {entries : List Json}
    {settings : DashboardSettings} {now : Utc} {inputs : Inputs} {doc : Snapshot}
    (h : host.buildSnapshot entries settings now inputs = .ok doc) {Lit : String → Prop}
    (hLit : ∀ s ∈ vocabulary, Lit s) :
    ∃ readings, host.readEntries now entries = .ok readings ∧
      (PublicSafe Lit inputs [] doc.toJson ↔
        (∀ e, ShownMetrics readings e → PublicBar Lit (dictGet e.snapshot "last_message_ts")) ∧
        ∀ e, ShownLoader readings e → ∀ s, dictGet e.fields "state" = .str s → Lit s) := by
  obtain ⟨state, nextOpen, readings, loader, table, costs, health, _, hread, hloader, htable, hcosts,
    _, rfl⟩ := buildSnapshot_eq_ok.mp h
  refine ⟨readings, hread, ?_⟩
  have htableReason : ∀ reason ∈ table.reason,
      PublicText Lit inputs [.member "table", .member "reason"] reason := by
    intro reason hreason
    rcases summarizeTableMetadata_reason htable hreason with rfl | hown
    · exact .tableReason rfl
    · exact own_public hLit hown
  have hcostReason : ∀ reason ∈ costs.reason,
      PublicText Lit inputs [.member "costs", .member "reason"] reason := by
    intro reason hreason
    rcases summarizeCostSnapshot_reason hcosts hreason with rfl | hown
    · exact .costReason rfl
    · exact own_public hLit hown
  simp only [Snapshot.publicSafe_iff hLit, publicSafe_bar, publicText_state]
  rw [lastBarUtc_sorted (PublicBar Lit) (by simp [PublicBar, OwnTexts]) readings,
    state_sorted Lit hloader]
  constructor
  · rintro ⟨hbar, hstate, _⟩
    exact ⟨hbar, hstate⟩
  · rintro ⟨hbar, hstate⟩
    exact ⟨hbar, hstate, htableReason, hcostReason⟩

/-! ### A state that is an address -/

def stateFields (state : String) : Dict :=
  [("event", .str "heartbeat"), ("topic", .str LOADER_TOPIC), ("state", .str state)]

/-- A heartbeat with a state. -/
def stateEntry (state : String) : Json :=
  .obj [("timestamp", .str "2026-08-29T11:59:00Z"), ("jsonPayload", .obj [
    ("_SYSTEMD_UNIT", .str LOADER_UNIT), ("target", .str LOADER_HEALTH_TARGET),
    ("fields", .obj (stateFields state))])]

def stateReadings (state : String) : Readings :=
  ⟨[], [⟨minuteToNoon, .heartbeat, stateFields state⟩], []⟩

theorem readEntries_stateEntry (state : String) :
    summerHost.readEntries saturdayNoon [stateEntry state] = .ok (stateReadings state) := rfl

theorem buildSnapshot_stateEntry (state : String) : ∃ doc,
    summerHost.buildSnapshot [stateEntry state] (.default "p") saturdayNoon .none = .ok doc ∧
      doc.loader.state = some state := by
  have hmarket : ∃ nextOpen, summerHost.marketState saturdayNoon = .ok (.weekend, nextOpen) :=
    ⟨_, rfl⟩
  have hsummary : ∃ loader, summerHost.loaderSummary (stateReadings state).sorted.loaderEvents 48 =
      .ok loader ∧ loader.state = some state ∧
        loader.latestHeartbeatUtc = some (.of minuteToNoon) :=
    ⟨_, rfl, rfl, rfl⟩
  obtain ⟨nextOpen, hmarket⟩ := hmarket
  obtain ⟨loader, hloader, hstate, hbeat⟩ := hsummary
  have hhealth : ∃ health, summerHost.health .weekend saturdayNoon (extractorSummary []) loader []
      (.default "p") = .ok health := by
    unfold Host.health
    rw [hbeat]
    exact ⟨_, rfl⟩
  obtain ⟨health, hhealth⟩ := hhealth
  exact ⟨_, buildSnapshot_eq_ok.mpr ⟨_, nextOpen, stateReadings state, loader, _, _, health, hmarket,
    readEntries_stateEntry state, hloader, rfl, rfl, hhealth, rfl⟩, hstate⟩

theorem mem_leavesAt_of_state {doc : Snapshot} {s : String} (h : doc.loader.state = some s) :
    ([.member "loader", .member "state"], .str s) ∈ doc.toJson.leavesAt [] := by
  have hmem : ([.member "loader", .member "state"], .str s) ∈
      doc.loader.toJson.leavesAt [.member "loader"] := by
    simp [LoaderSummary.toJson, h, orNull, Json.leavesAt, Json.leavesAtFields]
  simp [Snapshot.toJson, Json.leavesAt, Json.leavesAtFields, hmem]

/-- The address of a machine is published, whatever the exporter's own words are, if it
is not one of them. -/
theorem addressEntry_published : ∃ doc,
    summerHost.buildSnapshot [stateEntry "root@10.128.0.7"] (.default "p") saturdayNoon .none =
        .ok doc ∧
      ([.member "loader", .member "state"], .str "root@10.128.0.7") ∈ doc.toJson.leavesAt [] ∧
      ∀ Lit : String → Prop, ¬ Lit "root@10.128.0.7" → ¬ PublicSafe Lit .none [] doc.toJson := by
  obtain ⟨doc, hdoc, hstate⟩ := buildSnapshot_stateEntry "root@10.128.0.7"
  have hleaf := mem_leavesAt_of_state hstate
  refine ⟨doc, hdoc, hleaf, fun Lit hLit hsafe => ?_⟩
  exact hLit (publicText_state.mp (hsafe.1 _ hleaf _ rfl))

/-- The state the health rules look for is one of the exporter's own words. -/
theorem stalledEntry_publicSafe : ∃ doc,
    summerHost.buildSnapshot [stateEntry "stalled"] (.default "p") saturdayNoon .none = .ok doc ∧
      PublicSafe (· ∈ "stalled" :: vocabulary) .none [] doc.toJson := by
  obtain ⟨doc, hdoc, -⟩ := buildSnapshot_stateEntry "stalled"
  obtain ⟨readings, hread, hiff⟩ := @buildSnapshot_publicSafe_iff _ _ _ _ _ _ hdoc
    (· ∈ "stalled" :: vocabulary) fun _ hs => List.mem_cons_of_mem _ hs
  rw [readEntries_stateEntry] at hread
  cases hread
  refine ⟨doc, hdoc, hiff.mpr ⟨?_, ?_⟩⟩
  · intro e he
    exact absurd he (Recency.not_newest_nil _ _)
  · intro e he s hs
    obtain rfl := List.mem_singleton.mp he.mem
    cases hs
    exact List.mem_cons_self

end Lakehouse.Dashboard
