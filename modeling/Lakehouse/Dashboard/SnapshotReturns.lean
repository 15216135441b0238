/-
When `build_snapshot` makes a document of a log.

Texts the exporter wrote itself can be read back, so health can be told whenever
the newest bar time the extractor reported can be read and the limits of the
settings are durations.

* `health_returns` — the whole of `_health`.
* `buildSnapshot_returns` — the document, without table metadata and costs.
-/

import Lakehouse.Dashboard.BuildSnapshot
import Lakehouse.Dashboard.Returns
import Lakehouse.Dashboard.Timestamps

namespace Lakehouse.Dashboard

variable {host : Host} {settings : DashboardSettings} (now : Utc)

/-- Every limit of the settings is a `timedelta`. -/
structure DashboardSettings.Usable (s : DashboardSettings) : Prop where
  barWarning : Returns (minutes s.barWarningMinutes)
  barUnhealthy : Returns (minutes s.barUnhealthyMinutes)
  commitWarning : Returns (minutes s.commitWarningMinutes)
  commitUnhealthy : Returns (minutes s.commitUnhealthyMinutes)
  heartbeatWarning : Returns (minutes s.heartbeatWarningMinutes)
  heartbeatUnhealthy : Returns (minutes s.heartbeatUnhealthyMinutes)

theorem usable_default (projectId : String) : (DashboardSettings.default projectId).Usable :=
  ⟨⟨_, rfl⟩, ⟨_, rfl⟩, ⟨_, rfl⟩, ⟨_, rfl⟩, ⟨_, rfl⟩, ⟨_, rfl⟩⟩

theorem parseUtc_returns (host : Host) (s : UtcText) : Returns (host.parseUtc s.text) := by
  obtain ⟨t, ht⟩ := s.written
  rw [ht, parseUtc_utcText]
  exact returns_ok _

/-- A time that is absent or can be read. -/
def Host.Dated (host : Host) (value : Json) : Prop :=
  value = .null ∨ Returns (host.parseUtcValue value)

theorem dated_orNull (host : Host) (s : Option UtcText) : host.Dated (orNull UtcText.toJson s) := by
  cases s with
  | none => exact .inl rfl
  | some s => exact .inr (parseUtc_returns host s)

/-- The age of a time can be compared with two limits. -/
def Comparable (now t : Utc) (warningMinutes unhealthyMinutes : Int) : Prop :=
  ∃ unhealthy, minutes unhealthyMinutes = .ok unhealthy ∧
    (unhealthy < now.micros - t.micros ∨ Returns (minutes warningMinutes))

theorem Comparable.of_returns {t : Utc} {warningMinutes unhealthyMinutes : Int}
    (hwarning : Returns (minutes warningMinutes)) (hunhealthy : Returns (minutes unhealthyMinutes)) :
    Comparable now t warningMinutes unhealthyMinutes :=
  hunhealthy.imp fun _ h => ⟨h, .inr hwarning⟩

/-- The age of a value can be told, if it is there. -/
structure Host.Judged (host : Host) (now : Utc) (value : Json) (warningMinutes unhealthyMinutes : Int) :
    Prop where
  dated : host.Dated value
  comparable : ∀ t, host.parseUtcValue value = .ok t →
    Comparable now t warningMinutes unhealthyMinutes

theorem applyFreshness_returns_iff {value : Json} {warningMinutes unhealthyMinutes : Int}
    (h : Health) (signal : Signal) :
    Returns (host.applyFreshness h signal value now warningMinutes unhealthyMinutes) ↔
      host.Judged now value warningMinutes unhealthyMinutes := by
  unfold Host.applyFreshness
  split
  · refine ⟨fun _ => ⟨.inl rfl, fun t ht => by cases ht⟩, fun _ => returns_ok _⟩
  · rename_i hnull
    simp only [returns_bind]
    constructor
    · rintro ⟨t, ht, unhealthy, hunhealthy, hrest⟩
      refine ⟨.inr ⟨t, ht⟩, fun t' ht' => ?_⟩
      obtain rfl := Except.ok.inj (ht.symm.trans ht')
      refine ⟨unhealthy, hunhealthy, ?_⟩
      split at hrest
      · rename_i hstale
        exact .inl hstale
      · obtain ⟨warning, hwarning, -⟩ := returns_bind.mp hrest
        exact .inr ⟨warning, hwarning⟩
    · rintro ⟨hdated, hcomparable⟩
      obtain ⟨t, ht⟩ := hdated.resolve_left hnull
      obtain ⟨unhealthy, hunhealthy, hlimits⟩ := hcomparable t ht
      refine ⟨t, ht, unhealthy, hunhealthy, ?_⟩
      split
      · exact returns_pure _
      · rename_i hfresh
        obtain ⟨warning, hwarning⟩ := hlimits.resolve_left hfresh
        refine returns_bind.mpr ⟨warning, hwarning, ?_⟩
        split
        · exact returns_pure _
        · exact returns_pure _

theorem Host.Dated.judged {value : Json} {warningMinutes unhealthyMinutes : Int}
    (hvalue : host.Dated value) (hwarning : Returns (minutes warningMinutes))
    (hunhealthy : Returns (minutes unhealthyMinutes)) :
    host.Judged now value warningMinutes unhealthyMinutes :=
  ⟨hvalue, fun _ _ => .of_returns now hwarning hunhealthy⟩

theorem isUnresolved_returns (host : Host) (lastCommit : Option UtcText) (a : Alert) :
    Returns (host.isUnresolved lastCommit a) := by
  unfold Host.isUnresolved
  split
  · exact returns_ok _
  · split
    · exact returns_ok _
    · split
      · exact returns_ok _
      · rename_i commit
        obtain ⟨at_, hat⟩ := parseUtc_returns host a.atUtc
        obtain ⟨committed, hcommitted⟩ := parseUtc_returns host commit
        exact returns_bind.mpr ⟨at_, hat, returns_bind.mpr ⟨committed, hcommitted, returns_pure _⟩⟩

theorem sessionHealth_returns_iff {state : MarketState} {extractor : ExtractorSummary}
    {loader : LoaderSummary} :
    Returns (host.sessionHealth state now extractor loader settings) ↔
      (state = .marketOpen →
        host.Judged now extractor.lastBarUtc settings.barWarningMinutes
          settings.barUnhealthyMinutes ∧
        host.Judged now (orNull UtcText.toJson loader.lastCommitUtc)
          settings.commitWarningMinutes settings.commitUnhealthyMinutes) := by
  unfold Host.sessionHealth
  cases state with
  | marketOpen =>
      simp only [returns_bind, applyFreshness_returns_iff, forall_const, exists_and_right]
      exact and_congr_left fun _ => applyFreshness_returns_iff now ⟨.healthy, []⟩ .extractorBar
  | settling =>
      simp only [reduceCtorEq, false_imp_iff, iff_true]
      split
      · exact returns_ok _
      · exact returns_ok _
  | _ =>
      simp only [reduceCtorEq, false_imp_iff, iff_true]
      split
      · exact returns_ok _
      · exact returns_ok _

/-- Health can be told when the ages that the state asks for can. -/
theorem health_returns_iff {state : MarketState} {extractor : ExtractorSummary}
    {loader : LoaderSummary} {alerts : List Alert} :
    Returns (host.health state now extractor loader alerts settings) ↔
      (state = .marketOpen →
        host.Judged now extractor.lastBarUtc settings.barWarningMinutes
          settings.barUnhealthyMinutes ∧
        host.Judged now (orNull UtcText.toJson loader.lastCommitUtc)
          settings.commitWarningMinutes settings.commitUnhealthyMinutes) ∧
      host.Judged now (orNull UtcText.toJson loader.latestHeartbeatUtc)
        settings.heartbeatWarningMinutes settings.heartbeatUnhealthyMinutes := by
  rw [← sessionHealth_returns_iff]
  unfold Host.health
  rw [returns_bind]
  constructor
  · rintro ⟨session, hsession, hrest⟩
    obtain ⟨beat, hbeat, -⟩ := returns_bind.mp hrest
    exact ⟨⟨session, hsession⟩, (applyFreshness_returns_iff now session _).mp ⟨beat, hbeat⟩⟩
  · rintro ⟨⟨session, hsession⟩, hjudged⟩
    obtain ⟨beat, hbeat⟩ := (applyFreshness_returns_iff now session .loaderHeartbeat).mpr hjudged
    obtain ⟨unresolved, hunresolved⟩ := returns_mapM.mpr fun a (_ : a ∈ alerts) =>
      isUnresolved_returns host loader.lastCommitUtc a
    exact ⟨session, hsession, returns_bind.mpr ⟨beat, hbeat,
      returns_bind.mpr ⟨unresolved, hunresolved, returns_pure _⟩⟩⟩

theorem health_returns {extractor : ExtractorSummary} (hbar : host.Dated extractor.lastBarUtc)
    (husable : settings.Usable) (state : MarketState) (loader : LoaderSummary) (alerts : List Alert) :
    Returns (host.health state now extractor loader alerts settings) :=
  (health_returns_iff now).mpr
    ⟨fun _ => ⟨hbar.judged now husable.barWarning husable.barUnhealthy,
      (dated_orNull host _).judged now husable.commitWarning husable.commitUnhealthy⟩,
    (dated_orNull host _).judged now husable.heartbeatWarning husable.heartbeatUnhealthy⟩

/-- A log whose loader events can be summarized makes a document. -/
theorem buildSnapshot_returns {entries : List Json} {readings : Readings} {loader : LoaderSummary}
    (hmarket : Returns (host.marketState now)) (hread : host.readEntries now entries = .ok readings)
    (hloader : host.loaderSummary readings.sorted.loaderEvents settings.historyLimit = .ok loader)
    (hbar : host.Dated (extractorSummary readings.sorted.extractorEvents).lastBarUtc)
    (husable : settings.Usable) :
    Returns (host.buildSnapshot entries settings now Inputs.none) := by
  obtain ⟨⟨state, nextOpen⟩, hmarket⟩ := hmarket
  obtain ⟨health, hhealth⟩ := health_returns now hbar husable state loader
    readings.sorted.alerts
  exact ⟨_, buildSnapshot_eq_ok.mpr ⟨state, nextOpen, readings, loader, _, _, health, hmarket, hread,
    hloader, rfl, rfl, hhealth, rfl⟩⟩

end Lakehouse.Dashboard
