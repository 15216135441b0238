/-
What the page makes of a published document.

* `Sees` — the page has the value a document was written from.
* `works_render_iff` — what the page cannot show: a bar time that is no date, and a
  size that is a truth value.
* `load_complete_iff` — when the page shows the whole published file.
-/

import Lakehouse.Dashboard.Page
import Lakehouse.Dashboard.SnapshotReturns

namespace Lakehouse.Dashboard.Page

/-- The engine reads the timestamps `utc_text` writes. -/
def Browser.ReadsUtcText (b : Browser) : Prop := ∀ t : Utc, ∃ ms, b.date (some (.str (utcText t))) = some ms

/-- The page has the value `j` was published as. -/
structure Sees (v : Js Value) (j : Json) : Prop where
  value : v = .ok (some (onPage j))
  distinct : j.Distinct

section Sees

variable {b : Browser} {v : Js Value} {j : Json}

theorem Sees.member {d : Dict} {name : String} (h : Sees v (.obj d)) (hj : Json.lookup name d = some j) :
    Sees (Page.member v name) j where
  value := by
    have hfound := get?_onPage name h.distinct
    rw [Json.get?, hj] at hfound
    rw [h.value]
    exact congrArg Except.ok hfound
  distinct := Dashboard.distinct_member h.distinct hj

theorem Sees.done (h : Sees v j) : Done v := ⟨_, h.value⟩

theorem Sees.done_bind {α : Type} {f : Value → Js α} (h : Sees v j) :
    Done (v >>= f) ↔ Done (f (some (onPage j))) := by
  rw [h.value, done_bind_ok]

theorem done_metric (h : Sees v j) : Done (b.metric v) := by
  rw [h.value]
  unfold Browser.metric
  rw [done_bind_ok]
  split
  · exact done_pure _
  · exact done_pure _

theorem done_duration (h : Sees v j) : Done (b.duration v) := by
  rw [h.value]
  unfold Browser.duration
  rw [done_bind_ok]
  split
  · exact done_pure _
  · dsimp only
    split
    · exact done_pure _
    · exact done_pure _

theorem done_title {s : String} (h : Sees v (.str s)) : Done (title v) := by
  rw [h.value]
  exact done_pure _

/-- The page can show a value as a time, if it takes it for one. -/
def Browser.Datable (b : Browser) (j : Json) : Prop :=
  truthy (some (onPage j)) = true → ∃ ms, b.date (some (onPage j)) = some ms

theorem done_format (h : Sees v j) : Done (b.format v) ↔ ∃ ms, b.date (some (onPage j)) = some ms := by
  rw [h.value]
  unfold Browser.format
  rw [done_bind_ok]
  cases b.date (some (onPage j)) with
  | none => simp
  | some ms => simp

theorem done_utc_iff (h : Sees v j) : Done (b.utc v) ↔ b.Datable j := by
  have hformat := done_format (b := b) h
  rw [h.value] at hformat ⊢
  unfold Browser.utc Browser.Datable
  rw [done_bind_ok]
  cases htruthy : truthy (some (onPage j)) with
  | false => simp
  | true =>
      rw [if_pos rfl, done_bind_pure, hformat]
      exact ⟨fun h _ => h, fun h => h rfl⟩

theorem datable_orNull (hb : b.ReadsUtcText) (t : Option UtcText) :
    b.Datable (orNull UtcText.toJson t) := by
  intro htruthy
  cases t with
  | none => cases htruthy
  | some s =>
      obtain ⟨text, t, rfl⟩ := s
      exact hb t

theorem done_utc (hb : b.ReadsUtcText) {t : Option UtcText} (h : Sees v (orNull UtcText.toJson t)) :
    Done (b.utc v) := (done_utc_iff h).mpr (datable_orNull hb t)

theorem done_utcAndIst (hb : b.ReadsUtcText) {s : UtcText} (h : Sees v s.toJson) :
    Done (b.utcAndIst v) := by
  obtain ⟨text, t, rfl⟩ := s
  exact done_bind_pure.mpr ((done_format h).mpr (hb t))

/-- A size that is not a truth value. -/
def Sized (w : Option Whole) : Prop := ∀ x, w ≠ some (.bool x)

theorem done_bytes_number {x : Float} (h : v = .ok (some (.float x))) : Done (b.bytes v) := by
  rw [h]
  unfold Browser.bytes
  rw [done_bind_ok]
  dsimp only
  generalize Browser.scale 4 (b.asNumber (some (.float x))) = scaled
  obtain ⟨size, index⟩ := scaled
  cases index with
  | zero => exact done_pure _
  | succ index => exact done_pure _

theorem done_bytes_iff {w : Option Whole} (h : Sees v (orNull Whole.toJson w)) :
    Done (b.bytes v) ↔ Sized w := by
  cases w with
  | none =>
      rw [h.value]
      exact iff_of_true (done_pure _) (by simp [Sized])
  | some w =>
      cases w with
      | int n => exact iff_of_true (done_bytes_number h.value) (by simp [Sized])
      | bool x =>
          have hscale : (Browser.scale 4 (b.asNumber (some (.bool x)))).2 = 0 := by
            cases x with
            | false => exact congrArg Prod.snd (show Browser.scale 4 0 = (0, 0) from rfl)
            | true => exact congrArg Prod.snd (show Browser.scale 4 1 = (1, 0) from rfl)
          have hvalue : v = .ok (some (.bool x)) := h.value
          refine iff_of_false ?_ (by simp [Sized])
          rw [hvalue]
          unfold Browser.bytes
          rw [done_bind_ok]
          dsimp only
          generalize Browser.scale 4 (b.asNumber (some (.bool x))) = scaled at hscale
          obtain ⟨size, index⟩ := scaled
          cases hscale
          exact not_done_error _

theorem done_bytes_float {x : Option Float} (h : Sees v (orNull .float x)) : Done (b.bytes v) := by
  cases x with
  | none =>
      rw [h.value]
      exact done_pure _
  | some x => exact done_bytes_number h.value

theorem done_money {x : Option Float} {code : Option Currency} {c : Js Value}
    (h : Sees v (orNull .float x)) (hc : Sees c (orNull (fun c => .str c.text) code)) :
    Done (b.money v c) := by
  rw [h.value, hc.value]
  unfold Browser.money
  rw [done_bind_ok, done_bind_ok]
  cases x with
  | none => exact done_pure _
  | some x =>
      cases code with
      | none => exact done_pure _
      | some code =>
          dsimp only [orNull, onPage, Json.sortKeys, doubles]
          cases b.currency (some (.str code.text)) (some (.float x)) with
          | none => exact done_pure _
          | some text => exact done_pure _

end Sees

/-! ### Charts and lists -/

section Rows

variable {b : Browser} {v : Js Value} {rows : List Json}

theorem onPage_arr (rows : List Json) : onPage (.arr rows) = .arr (rows.map onPage) := by
  have hitems : ∀ xs, doublesItems xs = xs.map doubles := by
    intro xs
    induction xs with
    | nil => rfl
    | cons x xs ih => rw [doublesItems, ih, List.map_cons]
  rw [onPage, Json.sortKeys, doubles, hitems, Json.sortItems_eq, List.map_map]
  rfl

theorem Sees.items (h : Sees v (.arr rows)) : items v = .ok (rows.map onPage) := by
  rw [h.value, onPage_arr]
  rfl

theorem Sees.isEmpty (h : Sees v (.arr rows)) : isEmpty v = .ok rows.isEmpty := by
  rw [h.value, onPage_arr]
  cases rows <;> rfl

theorem Sees.row (h : Sees v (.arr rows)) {row : Json} (hrow : row ∈ rows) :
    Sees (.ok (some (onPage row))) row :=
  ⟨rfl, Json.distinctItems_iff.mp h.distinct row hrow⟩

theorem works_renderColumns {id emptyId : String} {size : Js Value → Js Float} {least : Float}
    {shown : List Json → List Json} {label : Js Value → Js String} (h : Sees v (.arr rows))
    (hsize : ∀ row ∈ rows, ∀ w, Sees w row → Done (size w))
    (hlabel : ∀ row ∈ rows, ∀ w, Sees w row → Done (label w))
    (hshown : ∀ items, ∀ item ∈ shown items, item ∈ items) :
    Works (b.renderColumns id emptyId v size least shown label) := by
  unfold Browser.renderColumns
  rw [h.isEmpty]
  cases rows.isEmpty with
  | true => simp
  | false =>
      dsimp only
      rw [works_cons, works_cons, h.items]
      refine ⟨done_ok _, ?_, works_nil⟩
      rw [done_bind_ok]
      refine done_bind (done_mapM.mpr ?_) fun sizes _ => done_bind_pure.mpr (done_mapM.mpr ?_)
      · rw [List.forall_mem_map]
        exact fun row hrow => hsize row hrow _ (h.row hrow)
      · intro item hitem
        obtain ⟨row, hrow, rfl⟩ := List.mem_map.mp (hshown _ item hitem)
        exact done_bind (hsize row hrow _ (h.row hrow)) fun _ _ =>
          done_bind_pure.mpr (hlabel row hrow _ (h.row hrow))

end Rows

/-! ### The sections -/

section Sections

variable {b : Browser} {doc : Snapshot} {data market health extractor loader table costs : Js Value}

theorem works_renderHead (hb : b.ReadsUtcText) (hdata : Sees data doc.toJson)
    (hmarket : Sees market (.obj [("state", .str doc.marketState.text),
      ("next_expected_open_utc", doc.nextExpectedOpenUtc.toJson)]))
    (hhealth : Sees health doc.health.toJson) : Works (b.renderHead data market health) := by
  have hopen : Sees (member market "next_expected_open_utc")
      (orNull UtcText.toJson (some doc.nextExpectedOpenUtc)) := hmarket.member rfl
  simp only [Browser.renderHead, works_cons, done_setText, done_map, done_concat,
    List.forall_mem_cons]
  refine ⟨done_title (hhealth.member rfl), (hhealth.member rfl).done, ⟨done_ok _, ?_, ?_⟩,
    done_title (hmarket.member rfl), done_utc hb hopen, works_nil⟩
  · exact done_utcAndIst hb (hdata.member rfl)
  · simp

theorem works_renderProgress_iff (hb : b.ReadsUtcText) (hextractor : Sees extractor doc.extractor.toJson)
    (hloader : Sees loader doc.loader.toJson) :
    Works (b.renderProgress extractor loader) ↔ b.Datable doc.extractor.lastBarUtc := by
  have hbar : Sees (member extractor "last_bar_utc") doc.extractor.lastBarUtc := hextractor.member rfl
  have hcommit : Sees (member loader "last_commit_utc")
      (orNull UtcText.toJson doc.loader.lastCommitUtc) := hloader.member rfl
  have hstate : Sees (member loader "state") (orNull .str doc.loader.state) := hloader.member rfl
  have hstatus : Sees (member loader "status") (.str doc.loader.status.text) := hloader.member rfl
  simp only [Browser.renderProgress, works_cons, done_setText, done_utc_iff hbar]
  refine ⟨fun h => h.1, fun h => ⟨h, done_title (hextractor.member rfl), done_utc hb hcommit, ?_,
    works_nil⟩⟩
  rw [hcommit.done_bind]
  split
  · exact done_pure _
  · rw [hstate.done_bind, hstatus.done_bind, done_concat]
    simp only [List.forall_mem_cons]
    refine ⟨?_, done_ok _, done_duration (hloader.member rfl), done_ok _, by simp⟩
    cases doc.loader.state with
    | none => exact done_pure _
    | some state => exact done_pure _

theorem works_renderLoader (hb : b.ReadsUtcText) (hloader : Sees loader doc.loader.toJson) :
    Works (b.renderLoader loader) := by
  have hstate : Sees (member loader "state") (orNull .str doc.loader.state) := hloader.member rfl
  have hheartbeat : Sees (member loader "latest_heartbeat_utc")
      (orNull UtcText.toJson doc.loader.latestHeartbeatUtc) := hloader.member rfl
  have hinput : Sees (member loader "last_input_utc")
      (orNull UtcText.toJson doc.loader.lastInputUtc) := hloader.member rfl
  have hstarted : Sees (member loader "process_started_at_utc")
      (orNull UtcText.toJson doc.loader.processStartedAtUtc) := hloader.member rfl
  have hcount : Sees (member loader "failure_count") (.int doc.loader.failureCount) :=
    hloader.member rfl
  have hcapped : Sees (member loader "failure_count_is_capped")
      (.bool doc.loader.failureCountIsCapped) := hloader.member rfl
  have hfailure : Sees (member loader "last_failure_utc")
      (orNull UtcText.toJson doc.loader.lastFailureUtc) := hloader.member rfl
  have hcode : Sees (member loader "last_failure_code")
      (orNull (fun f => .str (loaderFailureCode f)) doc.loader.lastFailureCode) := hloader.member rfl
  simp only [Browser.renderLoader, works_cons, done_setText]
  refine ⟨?_, done_metric (hloader.member rfl), done_metric (hloader.member rfl),
    done_duration (hloader.member rfl), ?_, ?_, works_nil⟩
  · rw [hstate.done_bind]
    cases doc.loader.state with
    | none => exact done_pure _
    | some state =>
        split
        · exact done_pure _
        · exact done_pure _
  · rw [hheartbeat.done_bind]
    split
    · rw [done_concat]
      simp only [List.forall_mem_cons]
      exact ⟨done_ok _, done_utc hb hheartbeat, done_ok _, done_utc hb hinput, done_ok _,
        done_utc hb hstarted, done_ok _, by simp⟩
    · exact done_pure _
  · rw [hcount.done_bind]
    split
    · exact done_pure _
    · rw [hcapped.done_bind, hcode.done_bind, done_concat]
      simp only [List.forall_mem_cons]
      refine ⟨?_, done_ok _, done_ok _, done_ok _, done_ok _, done_utc hb hfailure, done_ok _, ?_,
        done_ok _, by simp⟩
      · exact hcount.value ▸ done_metric hcount
      · cases doc.loader.lastFailureCode with
        | none => exact done_pure _
        | some f => exact done_pure _

theorem works_renderExtractor (hextractor : Sees extractor doc.extractor.toJson) :
    Works (b.renderExtractor extractor) := by
  simp only [Browser.renderExtractor, works_cons, done_setText]
  exact ⟨done_metric (hextractor.member rfl), done_metric (hextractor.member rfl),
    done_metric (hextractor.member rfl), done_metric (hextractor.member rfl), works_nil⟩

theorem works_renderTable_iff (hb : b.ReadsUtcText) (htable : Sees table doc.table.toJson) :
    Works (b.renderTable table) ↔ Sized doc.table.totalFilesSizeBytes ∧
      (doc.table.status = .available → Sized doc.table.latestAddedFilesSizeBytes) := by
  have hstatus : Sees (member table "status") (.str doc.table.status.text) := htable.member rfl
  have hoperation : Sees (member table "latest_operation")
      (orNull (fun o => .str o.text) doc.table.latestOperation) := htable.member rfl
  have hsize : Sees (member table "total_files_size_bytes")
      (orNull Whole.toJson doc.table.totalFilesSizeBytes) := htable.member rfl
  have hadded : Sees (member table "latest_added_files_size_bytes")
      (orNull Whole.toJson doc.table.latestAddedFilesSizeBytes) := htable.member rfl
  have haverage : Sees (member table "average_data_file_size_bytes")
      (orNull .float doc.table.averageDataFileSizeBytes) := htable.member rfl
  have hcommit : Sees (member table "current_snapshot_commit_utc")
      (orNull UtcText.toJson doc.table.currentSnapshotCommitUtc) := htable.member rfl
  have hupdate : Sees (member table "last_metadata_update_utc")
      (orNull UtcText.toJson doc.table.lastMetadataUpdateUtc) := htable.member rfl
  have hfiles : Sees (member table "latest_added_data_files")
      (orNull Whole.toJson doc.table.latestAddedDataFiles) := htable.member rfl
  have hdeletes : Sees (member table "total_delete_files")
      (orNull Whole.toJson doc.table.totalDeleteFiles) := htable.member rfl
  have hname : Done (do
      let operation ← member table "latest_operation"
      if truthy operation then title (.ok operation) else return "—") := by
    rw [hoperation.done_bind]
    cases doc.table.latestOperation with
    | none => exact done_pure _
    | some o =>
        split
        · exact done_pure _
        · exact done_pure _
  have hsections : Works (b.renderTable table) ↔ Sized doc.table.totalFilesSizeBytes ∧
      Done (if isText (some (onPage (.str doc.table.status.text))) "available" then do
        let files ← member table "latest_added_data_files"
        concat [.ok "Current Iceberg commit ", b.utc (member table "current_snapshot_commit_utc"),
          .ok " · ", b.metric (member table "latest_added_records"), .ok " rows · ",
          b.metric (.ok files), .ok " file", .ok (if isNumber files 1 then "" else "s"), .ok " · ",
          b.bytes (member table "latest_added_files_size_bytes"), .ok "."]
        else return "Table metadata is not available in this dashboard run.") ∧
      Done (if isText (some (onPage (.str doc.table.status.text))) "available" then
        concat [.ok "Metadata updated ", b.utc (member table "last_metadata_update_utc"), .ok " · ",
          b.metric (member table "metadata_history_count"), .ok " retained metadata versions · ",
          b.metric (member table "total_delete_files"), .ok " delete files."]
        else return "Table health is informational and does not affect pipeline health.") := by
    simp only [Browser.renderTable, works_cons, done_setText, done_bytes_iff hsize, hstatus.done_bind]
    constructor
    · rintro ⟨_, _, hsized, _, _, _, _, _, hcommit, hupdate, _⟩
      exact ⟨hsized, hcommit, hupdate⟩
    · rintro ⟨hsized, hcommit, hupdate⟩
      exact ⟨done_metric (htable.member rfl), done_metric (htable.member rfl), hsized, hname,
        done_bytes_float haverage, done_metric (htable.member rfl), done_metric (htable.member rfl),
        done_metric hdeletes, hcommit, hupdate, works_nil⟩
  rw [hsections]
  cases doc.table.status with
  | unavailable => simp [isText, onPage, Availability.text, Json.sortKeys, doubles]
  | available =>
      rw [if_pos (by rfl), if_pos (by rfl), hfiles.done_bind, done_concat, done_concat]
      simp only [List.forall_mem_cons, done_bytes_iff hadded]
      constructor
      · rintro ⟨hsized, ⟨_, _, _, _, _, _, _, _, _, hadded, _⟩, _⟩
        exact ⟨hsized, fun _ => hadded⟩
      · rintro ⟨hsized, hadded⟩
        refine ⟨hsized, ⟨done_ok _, done_utc hb hcommit, done_ok _, done_metric (htable.member rfl),
          done_ok _, ?_, done_ok _, done_ok _, done_ok _, hadded trivial, done_ok _, by simp⟩,
          done_ok _, done_utc hb hupdate, done_ok _, done_metric (htable.member rfl), done_ok _,
          done_metric hdeletes, done_ok _, by simp⟩
        exact hfiles.value ▸ done_metric hfiles

theorem works_renderCosts (hb : b.ReadsUtcText) (hcosts : Sees costs doc.costs.toJson) :
    Works (b.renderCosts costs) := by
  have hcurrency : Sees (member costs "currency") (orNull (fun c => .str c.text) doc.costs.currency) :=
    hcosts.member rfl
  have hstatus : Sees (member costs "status") (.str doc.costs.status.text) := hcosts.member rfl
  have htoday : Sees (member costs "today_net_cost") (orNull .float doc.costs.todayNetCost) :=
    hcosts.member rfl
  have hweek : Sees (member costs "seven_day_net_cost") (orNull .float doc.costs.sevenDayNetCost) :=
    hcosts.member rfl
  have hmonth : Sees (member costs "month_to_date_net_cost")
      (orNull .float doc.costs.monthToDateNetCost) := hcosts.member rfl
  have hexported : Sees (member costs "source_exported_at_utc")
      (orNull UtcText.toJson doc.costs.sourceExportedAtUtc) := hcosts.member rfl
  have haggregated : Sees (member costs "aggregated_at_utc")
      (orNull UtcText.toJson doc.costs.aggregatedAtUtc) := hcosts.member rfl
  simp only [Browser.renderCosts, works_cons, done_setText]
  refine ⟨done_money htoday hcurrency, done_money hweek hcurrency, done_money hmonth hcurrency, ?_,
    works_nil⟩
  rw [hstatus.done_bind]
  split
  · rw [done_concat]
    simp only [List.forall_mem_cons]
    exact ⟨done_ok _, done_utc hb hexported, done_ok _, done_utc hb haggregated, done_ok _, by simp⟩
  · exact done_pure _

theorem works_renderSession (hb : b.ReadsUtcText)
    (hmarket : Sees market (.obj [("state", .str doc.marketState.text),
      ("next_expected_open_utc", doc.nextExpectedOpenUtc.toJson)]))
    (hhealth : Sees health doc.health.toJson) (hextractor : Sees extractor doc.extractor.toJson) :
    Works (b.renderSession market health extractor) := by
  have hstate : Sees (member market "state") (.str doc.marketState.text) := hmarket.member rfl
  have hreasons : Sees (member health "reasons")
      (.arr (doc.health.reasons.map fun r => .str r.text)) := hhealth.member rfl
  have hreason : Sees (member extractor "shutdown_reason")
      (if doc.extractor.idleWindow then .str "idle_window" else .null) := hextractor.member rfl
  have hstatus : Sees (member extractor "status") (.str doc.extractor.status.text) :=
    hextractor.member rfl
  have hfinal : Sees (member extractor "final_metrics_at_utc")
      (orNull UtcText.toJson doc.extractor.finalMetricsAtUtc) := hextractor.member rfl
  simp only [Browser.renderSession, works_cons, done_setText, done_map]
  refine ⟨?_, ?_, ?_, hstate.done, done_ok _, works_nil⟩
  · rw [hreason.done_bind]
    cases doc.extractor.idleWindow with
    | true => exact done_pure _
    | false =>
        rw [if_neg (by simp [onPage, Json.sortKeys, doubles, truthy]),
          hstatus.done_bind]
        split
        · exact done_pure _
        · exact done_pure _
  · rw [hfinal.done_bind]
    split
    · rw [done_concat]
      simp only [List.forall_mem_cons]
      exact ⟨done_ok _, done_utc hb hfinal, done_ok _, by simp⟩
    · rw [hstatus.done_bind]
      split
      · exact done_pure _
      · exact done_pure _
  · rw [hreasons.isEmpty, hreasons.items, done_bind_ok]
    split
    · rw [done_concat]
      simp only [List.forall_mem_cons]
      exact ⟨done_title hstate, done_ok _, by simp⟩
    · refine done_bind (done_title hstate) fun state _ => ?_
      rw [done_bind_ok]
      refine done_bind_pure.mpr (done_mapM.mpr ?_)
      rw [List.forall_mem_map, List.forall_mem_map]
      exact fun r _ => done_pure _

theorem works_renderChart (hb : b.ReadsUtcText) {commits : Js Value}
    (hcommits : Sees commits (.arr (doc.loader.recentCommits.map Commit.toJson))) :
    Works (b.renderChart commits) := by
  apply works_renderColumns hcommits
  · rw [List.forall_mem_map]
    intro c _ v hv
    exact done_bind_pure.mpr (hv.member rfl).done
  · rw [List.forall_mem_map]
    intro c _ v hv
    have hat : Sees (member v "at_utc") (orNull UtcText.toJson (some c.atUtc)) := hv.member rfl
    rw [done_concat]
    simp only [List.forall_mem_cons]
    exact ⟨done_utc hb hat, done_ok _, done_duration (hv.member rfl), done_ok _,
      done_metric (hv.member rfl), done_ok _, by simp⟩
  · exact fun items item hitem => List.mem_of_mem_drop hitem

theorem works_renderCostChart (hcosts : Sees costs doc.costs.toJson) : Works (b.renderCostChart costs) := by
  have hcurrency : Sees (member costs "currency") (orNull (fun c => .str c.text) doc.costs.currency) :=
    hcosts.member rfl
  have hdaily : Sees (member costs "daily_costs") (.arr (doc.costs.dailyCosts.map DailyCost.toJson)) :=
    hcosts.member rfl
  apply works_renderColumns hdaily
  · rw [List.forall_mem_map]
    intro c _ v hv
    exact done_bind_pure.mpr (hv.member rfl).done
  · rw [List.forall_mem_map]
    intro c _ v hv
    have hcost : Sees (member v "net_cost") (orNull .float (some c.netCost)) := hv.member rfl
    rw [done_concat]
    simp only [List.forall_mem_cons]
    exact ⟨done_functor.mpr (hv.member rfl).done, done_ok _, done_money hcost hcurrency, by simp⟩
  · exact fun items item hitem => hitem

theorem works_renderTopServices (hcosts : Sees costs doc.costs.toJson) :
    Works (b.renderTopServices costs) := by
  have hcurrency : Sees (member costs "currency") (orNull (fun c => .str c.text) doc.costs.currency) :=
    hcosts.member rfl
  have hservices : Sees (member costs "top_services")
      (.arr (doc.costs.topServices.map ServiceCost.toJson)) := hcosts.member rfl
  unfold Browser.renderTopServices
  dsimp only
  rw [hservices.isEmpty, hservices.items, works_cons]
  refine ⟨done_ok _, ?_⟩
  cases (doc.costs.topServices.map ServiceCost.toJson).isEmpty with
  | true => simp
  | false =>
      intro write hwrite
      obtain ⟨⟨row, index⟩, hrow, rfl⟩ := List.mem_map.mp hwrite
      obtain ⟨_, hmem, hservice⟩ := List.mem_map.mp (List.fst_mem_of_mem_zipIdx hrow)
      obtain ⟨c, hc, rfl⟩ := List.mem_map.mp hmem
      obtain rfl : onPage c.toJson = row := hservice
      have hsees := hservices.row hmem
      have hcost : Sees (member (.ok (some (onPage c.toJson))) "net_cost")
          (orNull .float (some c.netCost)) := hsees.member rfl
      exact done_bind (hsees.member rfl).done fun _ _ => done_bind_pure.mpr (done_money hcost hcurrency)

theorem works_renderAlerts (hb : b.ReadsUtcText) {alerts : Js Value}
    (halerts : Sees alerts (.arr (doc.alerts.map Alert.toJson))) : Works (b.renderAlerts alerts) := by
  unfold Browser.renderAlerts
  rw [halerts.isEmpty, halerts.items, works_cons]
  refine ⟨done_ok _, ?_⟩
  cases (doc.alerts.map Alert.toJson).isEmpty with
  | true => simp
  | false =>
      intro write hwrite
      obtain ⟨row, hrow, rfl⟩ := List.mem_map.mp hwrite
      obtain ⟨_, hmem, rfl⟩ := List.mem_map.mp hrow
      obtain ⟨a, ha, rfl⟩ := List.mem_map.mp hmem
      have hsees := halerts.row hmem
      have hat : Sees (member (.ok (some (onPage a.toJson))) "at_utc")
          (orNull UtcText.toJson (some a.atUtc)) := hsees.member rfl
      refine done_bind_pure.mpr (done_concat.mpr ?_)
      simp only [List.forall_mem_cons]
      exact ⟨done_utc hb hat, done_ok _, done_functor.mpr (hsees.member rfl).done, done_ok _,
        done_title (hsees.member rfl), by simp⟩

end Sections

/-- The page shows every document whose bar time is no text but a date, and whose sizes
are numbers. -/
theorem works_render_iff {b : Browser} {doc : Snapshot} (hb : b.ReadsUtcText)
    (hdistinct : doc.toJson.Distinct) :
    Works (b.render (some (onPage doc.toJson))) ↔ b.Datable doc.extractor.lastBarUtc ∧
      Sized doc.table.totalFilesSizeBytes ∧
        (doc.table.status = .available → Sized doc.table.latestAddedFilesSizeBytes) := by
  have hdata : Sees (.ok (some (onPage doc.toJson))) doc.toJson := ⟨rfl, hdistinct⟩
  have hmarket : Sees (member (.ok (some (onPage doc.toJson))) "market") (.obj [("state",
      .str doc.marketState.text), ("next_expected_open_utc", doc.nextExpectedOpenUtc.toJson)]) :=
    hdata.member rfl
  have hhealth : Sees (member (.ok (some (onPage doc.toJson))) "health") doc.health.toJson :=
    hdata.member rfl
  have hextractor : Sees (member (.ok (some (onPage doc.toJson))) "extractor") doc.extractor.toJson :=
    hdata.member rfl
  have hloader : Sees (member (.ok (some (onPage doc.toJson))) "loader") doc.loader.toJson :=
    hdata.member rfl
  have htable : Sees (member (.ok (some (onPage doc.toJson))) "table") doc.table.toJson :=
    hdata.member rfl
  have hcosts : Sees (member (.ok (some (onPage doc.toJson))) "costs") doc.costs.toJson :=
    hdata.member rfl
  simp only [Browser.render, works_append, works_renderProgress_iff hb hextractor hloader,
    works_renderTable_iff hb htable]
  constructor
  · rintro ⟨⟨⟨⟨⟨⟨⟨⟨⟨⟨_, hbar⟩, _⟩, _⟩, hsizes⟩, _⟩, _⟩, _⟩, _⟩, _⟩, _⟩
    exact ⟨hbar, hsizes⟩
  · rintro ⟨hbar, hsizes⟩
    exact ⟨⟨⟨⟨⟨⟨⟨⟨⟨⟨works_renderHead hb hdata hmarket hhealth, hbar⟩, works_renderLoader hb hloader⟩,
      works_renderExtractor hextractor⟩, hsizes⟩, works_renderCosts hb hcosts⟩,
      works_renderSession hb hmarket hhealth hextractor⟩, works_renderChart hb (hloader.member rfl)⟩,
      works_renderCostChart hcosts⟩, works_renderTopServices hcosts⟩,
      works_renderAlerts hb (hdata.member rfl)⟩

theorem mem_render {b : Browser} {data : Value} {write : Js Write}
    (h : write ∈ b.renderProgress (member (.ok data) "extractor") (member (.ok data) "loader") ∨
      write ∈ b.renderExtractor (member (.ok data) "extractor")) : write ∈ b.render data := by
  simp only [Browser.render, List.append_assoc, List.mem_append]
  rcases h with h | h
  · exact .inr (.inl h)
  · exact .inr (.inr (.inr (.inl h)))

/-! ### The published file -/

section Published

variable {b : Browser} {host : Host} {depth : Nat} {entries : List Json}
  {settings : DashboardSettings} {now : Utc} {inputs : Inputs} {doc : Snapshot} {text : String}

theorem load_eq {page : Json} (hpage : jsonParse text = .ok page) :
    (b.load (.ok text)).2 = (perform (b.render (some page))).2 ∧
      ((b.load (.ok text)).2 = none → (b.load (.ok text)).1 = (perform (b.render (some page))).1) := by
  have hload : (Except.ok text : Js String).bind (fun text =>
      (jsonParse text).mapError fun _ => JsError.syntaxError) = .ok page := by
    rw [Except.bind, hpage]
    rfl
  unfold Browser.load
  rw [hload]
  dsimp only
  cases perform (b.render (some page)) with
  | mk done thrown =>
      cases thrown with
      | none => exact ⟨rfl, fun _ => rfl⟩
      | some e => exact ⟨rfl, fun h => by cases h⟩

theorem load_eq_none_iff (hb : b.ReadsUtcText)
    (hdoc : host.buildSnapshot entries settings now inputs = .ok doc)
    (htext : host.publish depth entries settings now inputs = .ok text)
    (hrepr : ∀ x, .float x ∈ doc.toJson.leaves → Double.IsFinite x → host.ReprReads x) :
    (b.load (.ok text)).2 = none ↔ doc.extractor.lastBarUtc.AllLeaves FiniteNumber ∧
      b.Datable doc.extractor.lastBarUtc ∧ Sized doc.table.totalFilesSizeBytes ∧
        (doc.table.status = .available → Sized doc.table.latestAddedFilesSizeBytes) := by
  obtain ⟨written, hwritten, rfl⟩ := dumps_of_publish hdoc htext
  have hdistinct := document_distinct hdoc
  rw [← document_finite_iff hdoc, ← works_render_iff hb hdistinct]
  by_cases hfinite : doc.toJson.AllLeaves FiniteNumber
  · have hpage := jsonParse_dumps hrepr hdistinct hwritten hfinite
    rw [(load_eq hpage).1, perform_eq_none]
    exact ⟨fun h => ⟨hfinite, h⟩, fun h => h.2⟩
  · refine iff_of_false ?_ fun h => hfinite h.1
    cases hpage : jsonParse (written ++ "\n") with
    | error e =>
        unfold Browser.load
        rw [Except.bind, hpage]
        exact fun h => by cases h
    | ok page => exact absurd (finite_of_jsonParse hrepr hwritten hpage) hfinite

/-- A complete page is the rendering of the document. -/
theorem load_rendered (hdoc : host.buildSnapshot entries settings now inputs = .ok doc)
    (htext : host.publish depth entries settings now inputs = .ok text)
    (hrepr : ∀ x, .float x ∈ doc.toJson.leaves → Double.IsFinite x → host.ReprReads x)
    (hcomplete : (b.load (.ok text)).2 = none) :
    (perform (b.render (some (onPage doc.toJson)))).2 = none ∧
      (b.load (.ok text)).1 = (perform (b.render (some (onPage doc.toJson)))).1 := by
  obtain ⟨written, hwritten, rfl⟩ := dumps_of_publish hdoc htext
  have hdistinct := document_distinct hdoc
  cases hpage : jsonParse (written ++ "\n") with
  | error e =>
      unfold Browser.load at hcomplete
      rw [Except.bind, hpage] at hcomplete
      cases hcomplete
  | ok page =>
      have hfinite := finite_of_jsonParse hrepr hwritten hpage
      have hread := jsonParse_dumps hrepr hdistinct hwritten hfinite
      obtain ⟨herror, hsame⟩ := load_eq (b := b) hread
      exact ⟨herror ▸ hcomplete, hsame hcomplete⟩

theorem unavailable_of_caught {response : Js String} {e : JsError}
    (h : (b.load response).2 = some e) : ∃ shown, (b.load response).1 = shown ++ b.unavailable e := by
  unfold Browser.load at h ⊢
  split
  · rename_i heq
    rw [heq] at h
    cases h
    exact ⟨[], rfl⟩
  · rename_i page heq
    rw [heq] at h
    dsimp only at h ⊢
    cases hperform : perform (b.render (some page)) with
    | mk done thrown =>
        rw [hperform] at h
        cases thrown with
        | none => cases h
        | some e =>
            cases h
            exact ⟨done, rfl⟩

/-- The page shows the document the exporter has published, all of it, exactly if the
document's bar time has no number that is NaN or infinite and is no text but a date, and
the sizes of the table are no truth values. Otherwise it says in the end that it has no
metrics. -/
theorem load_complete_iff (hb : b.ReadsUtcText)
    (hdoc : host.buildSnapshot entries settings now inputs = .ok doc)
    (htext : host.publish depth entries settings now inputs = .ok text)
    (hrepr : ∀ x, .float x ∈ doc.toJson.leaves → Double.IsFinite x → host.ReprReads x) :
    ((b.load (.ok text)).2 = none ↔ doc.extractor.lastBarUtc.AllLeaves FiniteNumber ∧
      b.Datable doc.extractor.lastBarUtc ∧ Sized doc.table.totalFilesSizeBytes ∧
        (doc.table.status = .available → Sized doc.table.latestAddedFilesSizeBytes)) ∧
    ((b.load (.ok text)).2 = none →
      (b.load (.ok text)).1 = (perform (b.render (some (onPage doc.toJson)))).1 ∧
        Works (b.render (some (onPage doc.toJson)))) ∧
    ∀ e, (b.load (.ok text)).2 = some e → ∃ shown, (b.load (.ok text)).1 = shown ++ b.unavailable e := by
  refine ⟨load_eq_none_iff hb hdoc htext hrepr, fun hcomplete => ?_, fun e => unavailable_of_caught⟩
  obtain ⟨hnone, hsame⟩ := load_rendered hdoc htext hrepr hcomplete
  exact ⟨hsame, perform_eq_none.mp hnone⟩

end Published

/-- The times the exporter reads. -/
def isoDate : Value → Option Int
  | some (.str s) => (summerHost.parseUtc s).toOption.map fun t => t.micros / 1000
  | _ => none

/-- An engine that reads the exporter's times and formats every number alike. -/
def plainBrowser : Browser where
  date := isoDate
  utcTime ms := toString ms
  istTime ms := toString ms
  number _ := "1"
  currency _ _ := none
  toNumber _ := 0 / 0
  toText
    | some (.str s) => s
    | _ => ""
  toFixed _ _ := "1"
  message _ := "Error"

theorem plainBrowser_reads : plainBrowser.ReadsUtcText := by
  intro t
  have hdate : plainBrowser.date = isoDate := rfl
  have hread : isoDate (some (.str (utcText t))) = some (t.wholeSecond.micros / 1000) := by
    rw [isoDate, parseUtc_utcText, Except.toOption, Option.map_some]
  rw [hdate]
  exact ⟨_, hread⟩

theorem quarter_complete : ∃ doc text,
    quarterHost.buildSnapshot [quarterEntry] (.default "p") saturdayNoon quarterInputs = .ok doc ∧
      ((plainBrowser.load (.ok text)).2 = none ↔ doc.extractor.lastBarUtc.AllLeaves FiniteNumber ∧
        plainBrowser.Datable doc.extractor.lastBarUtc ∧ Sized doc.table.totalFilesSizeBytes ∧
          (doc.table.status = .available → Sized doc.table.latestAddedFilesSizeBytes)) := by
  obtain ⟨doc, text, hdoc, htext, hrepr⟩ := quarter_published
  exact ⟨doc, text, hdoc, (load_complete_iff plainBrowser_reads hdoc htext hrepr).1⟩

end Lakehouse.Dashboard.Page
