/-
Which logs become a document.

`Host.Exports` lists what `build_snapshot` asks of a log of entries, of the
settings, the time and the inputs: every record can be read, the summary of the
loader raises nowhere, the two informational sections can be shown, and the times
that the health rules judge can be judged.

* `health_returns_iff_limits`: the health rules, for what was read of a log.
* `buildSnapshot_returns_iff`: the whole run.
-/

import Lakehouse.Dashboard.CommitHistory
import Lakehouse.Dashboard.Informational
import Lakehouse.Dashboard.PublicSafe
import Lakehouse.Dashboard.Records
import Lakehouse.Dashboard.SnapshotReturns

namespace Lakehouse.Dashboard

/-! ### The times that are judged -/

/-- The limits that a time of the log is compared with are durations. -/
structure Host.LimitsHold (host : Host) (settings : DashboardSettings) (state : MarketState)
    (now : Utc) (r : Readings) : Prop where
  bar : state = .marketOpen → ∀ e, ShownMetrics r e →
    ∀ t, host.parseUtcValue (dictGet e.snapshot "last_message_ts") = .ok t →
      Comparable now t settings.barWarningMinutes settings.barUnhealthyMinutes
  commit : state = .marketOpen →
    ∀ t, host.parseUtcValue (shownCommit r.sorted.loaderEvents) = .ok t →
      Comparable now t.wholeSecond settings.commitWarningMinutes settings.commitUnhealthyMinutes
  heartbeat : ∀ e ∈ shownHeartbeat r.sorted.loaderEvents,
    Comparable now e.at_.wholeSecond settings.heartbeatWarningMinutes
      settings.heartbeatUnhealthyMinutes

section Judged

variable {host : Host} {now : Utc} {warning unhealthy : Int}

theorem judged_null : host.Judged now .null warning unhealthy := ⟨.inl rfl, fun _ h => by cases h⟩

/-- A text the exporter wrote is read to the second. -/
theorem judged_some {t : Utc} :
    host.Judged now (orNull UtcText.toJson (some (.of t))) warning unhealthy ↔
      Comparable now t.wholeSecond warning unhealthy := by
  have hparse : host.parseUtcValue (orNull UtcText.toJson (some (.of t))) = .ok t.wholeSecond :=
    parseUtc_utcText host t
  constructor
  · exact fun h => h.comparable _ hparse
  · refine fun h => ⟨.inr ⟨_, hparse⟩, fun t' ht' => ?_⟩
    obtain rfl := Except.ok.inj (hparse.symm.trans ht')
    exact h

theorem judged_optionalUtc {value : Json} {shown : Option UtcText}
    (h : host.optionalUtc value = .ok shown) :
    host.Judged now (orNull UtcText.toJson shown) warning unhealthy ↔
      ∀ t, host.parseUtcValue value = .ok t → Comparable now t.wholeSecond warning unhealthy := by
  cases hparse : host.parseUtcValue value with
  | ok t =>
      cases value with
      | str text =>
          have hparse : host.parseUtc text = .ok t := hparse
          rw [optionalUtc_of_ok hparse] at h
          obtain rfl := Except.ok.inj h
          rw [judged_some]
          simp
      | _ => cases hparse
  | error e =>
      have hnone : shown = none := by
        cases value with
        | str text =>
            have hparse : host.parseUtc text = .error e := hparse
            rw [optionalUtc_of_error hparse] at h
            split at h
            · exact (Except.ok.inj h).symm
            · cases h
        | _ => exact (Except.ok.inj h).symm
      rw [hnone, orNull]
      simp [judged_null]

/-- Health can be told of a log when the times that are judged can be read, and the limits
hold. -/
theorem health_returns_iff_limits {settings : DashboardSettings} {state : MarketState}
    {r : Readings} {loader : LoaderSummary}
    (hloader : host.loaderSummary r.sorted.loaderEvents settings.historyLimit = .ok loader) :
    Returns (host.health state now (extractorSummary r.sorted.extractorEvents) loader
      r.sorted.alerts settings) ↔
        (state = .marketOpen → ∀ e, ShownMetrics r e →
          host.Dated (dictGet e.snapshot "last_message_ts")) ∧
        host.LimitsHold settings state now r := by
  obtain ⟨-, hbeatUtc, hcommitUtc⟩ := loaderSummary_shows hloader
  have hbar : host.Judged now (extractorSummary r.sorted.extractorEvents).lastBarUtc
        settings.barWarningMinutes settings.barUnhealthyMinutes ↔
      ∀ e, ShownMetrics r e → host.Judged now (dictGet e.snapshot "last_message_ts")
        settings.barWarningMinutes settings.barUnhealthyMinutes :=
    lastBarUtc_sorted (fun value => host.Judged now value settings.barWarningMinutes
      settings.barUnhealthyMinutes) judged_null r
  have hbeat : host.Judged now (orNull UtcText.toJson loader.latestHeartbeatUtc)
        settings.heartbeatWarningMinutes settings.heartbeatUnhealthyMinutes ↔
      ∀ e ∈ shownHeartbeat r.sorted.loaderEvents,
        Comparable now e.at_.wholeSecond settings.heartbeatWarningMinutes
          settings.heartbeatUnhealthyMinutes := by
    rw [hbeatUtc]
    cases shownHeartbeat r.sorted.loaderEvents with
    | none => simp [orNull, judged_null]
    | some e => simpa using judged_some
  rw [health_returns_iff, hbar, judged_optionalUtc hcommitUtc, hbeat]
  constructor
  · rintro ⟨hopen, hbeats⟩
    exact ⟨fun hstate e he => ((hopen hstate).1 e he).dated,
      fun hstate e he => ((hopen hstate).1 e he).comparable, fun hstate => (hopen hstate).2, hbeats⟩
  · rintro ⟨hdated, hlimits⟩
    exact ⟨fun hstate => ⟨fun e he => ⟨hdated hstate e he, hlimits.bar hstate e he⟩,
      hlimits.commit hstate⟩, hlimits.heartbeat⟩

end Judged

/-! ### The run -/

/-- What `build_snapshot` asks of a log. -/
structure Host.Exports (host : Host) (settings : DashboardSettings) (now : Utc) (inputs : Inputs)
    (entries : List (Entry host now)) : Prop where
  market : Returns (host.marketState now)
  records : ∀ e ∈ entries, host.Takes e.payload
  summary : host.Summarizable (host.readings now entries).sorted.loaderEvents
  table : host.TableReadable inputs.tableMetadata
  costs : CostReadable inputs.costSnapshot
  bar : ∀ nextOpen, host.marketState now = .ok (.marketOpen, nextOpen) →
    ∀ e, ShownMetrics (host.readings now entries) e →
      host.Dated (dictGet e.snapshot "last_message_ts")
  limits : ∀ state nextOpen, host.marketState now = .ok (state, nextOpen) →
    host.LimitsHold settings state now (host.readings now entries)

/-- A document is made exactly of the logs that have all of it. -/
theorem buildSnapshot_returns_iff {host : Host} {settings : DashboardSettings} {now : Utc}
    {inputs : Inputs} {entries : List (Entry host now)} :
    Returns (host.buildSnapshot (entries.map Entry.toJson) settings now inputs) ↔
      host.Exports settings now inputs entries := by
  constructor
  · rintro ⟨doc, hdoc⟩
    obtain ⟨state, nextOpen, r, loader, table, costs, health, hmarket, hread, hloader, htable,
      hcosts, hhealth, -⟩ := buildSnapshot_eq_ok.mp hdoc
    obtain ⟨hrecords, rfl⟩ := readEntries_eq_ok.mp hread
    obtain ⟨hbar, hlimits⟩ := (health_returns_iff_limits hloader).mp ⟨health, hhealth⟩
    have hstate : ∀ other opening, host.marketState now = .ok (other, opening) → other = state := by
      intro other opening hother
      rw [hmarket] at hother
      cases hother
      rfl
    refine ⟨⟨_, hmarket⟩, hrecords, summarizable_of_loaderSummary hloader,
      summarizeTableMetadata_returns.mp ⟨table, htable⟩,
      summarizeCostSnapshot_returns.mp ⟨costs, hcosts⟩, ?_, ?_⟩
    · intro opening hopen
      exact hbar (hstate _ _ hopen).symm
    · intro other opening hother
      rw [hstate _ _ hother]
      exact hlimits
  · rintro ⟨⟨⟨state, nextOpen⟩, hmarket⟩, hrecords, hsummary, htable, hcosts, hbar, hlimits⟩
    obtain ⟨table, htable⟩ : Returns (host.summarizeTableMetadata inputs.tableMetadata
        inputs.tableUnavailableReason) := summarizeTableMetadata_returns.mpr htable
    obtain ⟨costs, hcosts⟩ : Returns (summarizeCostSnapshot inputs.costSnapshot now
        inputs.costUnavailableReason) := summarizeCostSnapshot_returns.mpr hcosts
    obtain ⟨_, loader, _, hloader, _⟩ := exists_loaderSummary hsummary settings.historyLimit
    obtain ⟨health, hhealth⟩ := (health_returns_iff_limits hloader).mpr
      ⟨fun hopen => hbar nextOpen (hopen ▸ hmarket), hlimits state nextOpen hmarket⟩
    exact ⟨_, buildSnapshot_eq_ok.mpr ⟨state, nextOpen, _, loader, table, costs, health, hmarket,
      readEntries_eq_ok.mpr ⟨hrecords, rfl⟩, hloader, htable, hcosts, hhealth, rfl⟩⟩

end Lakehouse.Dashboard
