/-
`build_snapshot`: health, and the document made of all sections.
-/

import Lakehouse.Dashboard.CostSnapshot
import Lakehouse.Dashboard.Market
import Lakehouse.Dashboard.TableMetadata

namespace Lakehouse.Dashboard

/-- `DashboardSettings`. -/
structure DashboardSettings where
  projectId : String
  barWarningMinutes : Int
  barUnhealthyMinutes : Int
  commitWarningMinutes : Int
  commitUnhealthyMinutes : Int
  heartbeatWarningMinutes : Int
  heartbeatUnhealthyMinutes : Int
  historyLimit : Int

/-- `DashboardSettings(project_id=…)`. -/
def DashboardSettings.default (projectId : String) : DashboardSettings :=
  ⟨projectId, 5, 10, 10, 15, 5, 10, 48⟩

/-! ### Health -/

/-- `timedelta(minutes=minutes)`, in microseconds. -/
def minutes (n : Int) : Py Int :=
  if -999999999 ≤ n * minuteMicros / dayMicros ∧ n * minuteMicros / dayMicros ≤ 999999999 then
    .ok (n * minuteMicros)
  else .error .overflowError

/-- `_apply_freshness`: the new status, and the reason it adds. -/
def Host.applyFreshness (host : Host) (h : Health) (signal : Signal) (value : Json) (now : Utc)
    (warningMinutes unhealthyMinutes : Int) : Py Health :=
  match value with
  | .null => .ok ⟨.unhealthy, h.reasons ++ [.missing signal]⟩
  | value => do
      let t ← host.parseUtcValue value
      let age := now.micros - t.micros
      let unhealthyAge ← minutes unhealthyMinutes
      if unhealthyAge < age then return ⟨.unhealthy, h.reasons ++ [.stale signal]⟩
      else
        let warningAge ← minutes warningMinutes
        if warningAge < age ∧ h.status ≠ .unhealthy then
          return ⟨.warning, h.reasons ++ [.aging signal]⟩
        else return h

/-- Whether an alert counts as an unresolved error. -/
def Host.isUnresolved (host : Host) (lastCommit : Option UtcText) (a : Alert) : Py Bool :=
  if a.severity ≠ .error then .ok false
  else if a.component ≠ .loader then .ok true
  else
    match lastCommit with
    | none => .ok true
    | some commit => do
        let at_ ← host.parseUtc a.atUtc.text
        let committed ← host.parseUtc commit.text
        return decide (committed.micros < at_.micros)

/-- The checks that depend on the market's state. -/
def Host.sessionHealth (host : Host) (state : MarketState) (now : Utc) (extractor : ExtractorSummary)
    (loader : LoaderSummary) (settings : DashboardSettings) : Py Health :=
  let h : Health := ⟨.healthy, []⟩
  match state with
  | .marketOpen => do
      let h ← host.applyFreshness h .extractorBar extractor.lastBarUtc now
        settings.barWarningMinutes settings.barUnhealthyMinutes
      host.applyFreshness h .loaderCommit (orNull UtcText.toJson loader.lastCommitUtc) now
        settings.commitWarningMinutes settings.commitUnhealthyMinutes
  | .settling =>
      if extractor.finalMetricsAtUtc.isNone then .ok ⟨.warning, [.awaitingCleanShutdown]⟩ else .ok h
  | .closed | .weekend | .preOpen =>
      if extractor.status = .noRecentSession then .ok ⟨.unknown, [.noRecentSession]⟩ else .ok h

/-- `_health`. -/
def Host.health (host : Host) (state : MarketState) (now : Utc) (extractor : ExtractorSummary)
    (loader : LoaderSummary) (alerts : List Alert) (settings : DashboardSettings) : Py Health := do
  let h ← host.sessionHealth state now extractor loader settings
  let h ← host.applyFreshness h .loaderHeartbeat (orNull UtcText.toJson loader.latestHeartbeatUtc)
    now settings.heartbeatWarningMinutes settings.heartbeatUnhealthyMinutes
  let h := if loader.state = some "stalled" then
    Health.mk .unhealthy (h.reasons ++ [.loaderStalled]) else h
  let unresolved ← alerts.mapM (host.isUnresolved loader.lastCommitUtc)
  return if unresolved.any id then ⟨.unhealthy, h.reasons ++ [.recentError]⟩ else h

/-! ### The document -/

/-- The order of the alerts, newest first. -/
def Alert.Newer (a b : Alert) : Prop := ¬ a.atUtc.text < b.atUtc.text

instance : DecidableRel Alert.Newer := fun a b =>
  inferInstanceAs (Decidable (¬ a.atUtc.text < b.atUtc.text))

def ExtractorEvent.Le (a b : ExtractorEvent) : Prop := a.at_.micros ≤ b.at_.micros

instance : DecidableRel ExtractorEvent.Le := fun a b =>
  inferInstanceAs (Decidable (a.at_.micros ≤ b.at_.micros))

def LoaderEvent.Le (a b : LoaderEvent) : Prop := a.at_.micros ≤ b.at_.micros

instance : DecidableRel LoaderEvent.Le := fun a b =>
  inferInstanceAs (Decidable (a.at_.micros ≤ b.at_.micros))

/-- The three `sort` calls. -/
def Readings.sorted (r : Readings) : Readings :=
  ⟨r.extractorEvents.insertionSort ExtractorEvent.Le, r.loaderEvents.insertionSort LoaderEvent.Le,
    r.alerts.insertionSort Alert.Newer⟩

/-- The optional inputs of `build_snapshot`. -/
structure Inputs where
  tableMetadata : Json
  tableUnavailableReason : String
  costSnapshot : Json
  costUnavailableReason : String

/-- The defaults of the optional inputs. -/
def Inputs.none : Inputs := ⟨.null, "not_configured", .null, "not_configured"⟩

/-- `build_snapshot`. -/
def Host.buildSnapshot (host : Host) (entries : List Json) (settings : DashboardSettings) (now : Utc)
    (inputs : Inputs) : Py Snapshot := do
  let (state, nextOpen) ← host.marketState now
  let readings ← host.readEntries now entries
  let events := readings.sorted
  let extractor := extractorSummary events.extractorEvents
  let loader ← host.loaderSummary events.loaderEvents settings.historyLimit
  let table ← host.summarizeTableMetadata inputs.tableMetadata inputs.tableUnavailableReason
  let costs ← summarizeCostSnapshot inputs.costSnapshot now inputs.costUnavailableReason
  let health ← host.health state now extractor loader events.alerts settings
  return {
    generatedAtUtc := .of now
    marketState := state
    nextExpectedOpenUtc := .of nextOpen
    health
    extractor
    loader
    table
    costs
    alerts := events.alerts.take 20 }

/-- A run that returns is a run of every section. -/
theorem buildSnapshot_eq_ok {host : Host} {entries : List Json} {settings : DashboardSettings}
    {now : Utc} {inputs : Inputs} {doc : Snapshot} :
    host.buildSnapshot entries settings now inputs = .ok doc ↔
      ∃ state nextOpen readings loader table costs health,
        host.marketState now = .ok (state, nextOpen) ∧
        host.readEntries now entries = .ok readings ∧
        host.loaderSummary readings.sorted.loaderEvents settings.historyLimit = .ok loader ∧
        host.summarizeTableMetadata inputs.tableMetadata inputs.tableUnavailableReason = .ok table ∧
        summarizeCostSnapshot inputs.costSnapshot now inputs.costUnavailableReason = .ok costs ∧
        host.health state now (extractorSummary readings.sorted.extractorEvents) loader
          readings.sorted.alerts settings = .ok health ∧
        doc = ⟨.of now, state, .of nextOpen, health,
          extractorSummary readings.sorted.extractorEvents, loader, table, costs,
          readings.sorted.alerts.take 20⟩ := by
  simp only [Host.buildSnapshot, Result.bind_eq_ok, Result.pure_eq_ok, Prod.exists]
  constructor
  · rintro ⟨state, nextOpen, hmarket, readings, hread, loader, hloader, table, htable, costs, hcosts,
      health, hhealth, rfl⟩
    exact ⟨state, nextOpen, readings, loader, table, costs, health, hmarket, hread, hloader, htable,
      hcosts, hhealth, rfl⟩
  · rintro ⟨state, nextOpen, readings, loader, table, costs, health, hmarket, hread, hloader, htable,
      hcosts, hhealth, rfl⟩
    exact ⟨state, nextOpen, hmarket, readings, hread, loader, hloader, table, htable, costs, hcosts,
      health, hhealth, rfl⟩

/-! ### A machine in summer -/

/-- A zone at a fixed offset. -/
def Zone.fixed (utcOffset : Int) : Zone where
  clock t := .ok (t.micros + utcOffset)
  instant wall := Utc.ofMicros (wall - utcOffset)

/-- A machine whose clock is UTC while New York has daylight saving time. -/
def summerHost : Host where
  jsonDepth := 990
  reprDepth := 990
  eqDepth := 990
  printable _ := true
  floatRepr _ := "nan"
  localZone := .fixed 0
  newYork := .fixed (-4 * 3600 * 1000000)

/-- 2026-08-29T12:00:00Z, a Saturday. -/
def saturdayNoon : Utc := ⟨1788004800000000, by decide⟩

example : utcText saturdayNoon = "2026-08-29T12:00:00Z" := by decide

/-- The minute before. -/
def minuteToNoon : Utc := ⟨1788004740000000, by decide⟩

theorem parseUtc_minuteToNoon :
    summerHost.parseUtc "2026-08-29T11:59:00Z" = .ok minuteToNoon := (rfl)

end Lakehouse.Dashboard
