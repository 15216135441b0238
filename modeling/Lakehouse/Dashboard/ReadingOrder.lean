/-
The order in which log entries are read.

The queries return their entries newest first, one query after the other. Events
are sorted before anything is made of them, so that their order is of no account
when no two of them are simultaneous; alerts are counted in any order.

* `readEntries_perm`: the readings of the same entries in another order.
* `health_perm`: health does not depend on the order of the alerts.
* `buildSnapshot_perm`: nor does any section but that of the alerts.
-/

import Lakehouse.Dashboard.Resolution
import Lakehouse.Lib.Recency

namespace Lakehouse.Dashboard

variable {host : Host} {now : Utc}

/-- The same readings in another order. -/
structure Readings.Perm (r r' : Readings) : Prop where
  extractorEvents : r.extractorEvents.Perm r'.extractorEvents
  loaderEvents : r.loaderEvents.Perm r'.loaderEvents
  alerts : r.alerts.Perm r'.alerts

/-- No two events of a component have the same time. -/
structure Readings.Distinct (r : Readings) : Prop where
  extractorEvents : (r.extractorEvents.map fun e => e.at_.micros).Nodup
  loaderEvents : (r.loaderEvents.map fun e => e.at_.micros).Nodup

theorem readEntries_perm {entries entries' : List Json} {readings : Readings}
    (hperm : entries.Perm entries') (h : host.readEntries now entries = .ok readings) :
    ∃ readings', host.readEntries now entries' = .ok readings' ∧ readings.Perm readings' := by
  obtain ⟨rs, hrs, h⟩ := Result.bind_eq_ok.mp h
  cases h
  obtain ⟨rs', hrs', hperm⟩ := Result.mapM_perm hperm hrs
  exact ⟨Readings.of rs', Result.bind_eq_ok.mpr ⟨rs', hrs', rfl⟩,
    hperm.filterMap _, hperm.filterMap _, hperm.filterMap _⟩

theorem extractorEvents_sorted {r r' : Readings} (hperm : r.Perm r') (hdistinct : r.Distinct) :
    r.sorted.extractorEvents = r'.sorted.extractorEvents :=
  Recency.insertionSort_eq_of_perm (fun _ _ => Iff.rfl) hperm.extractorEvents
    hdistinct.extractorEvents

theorem loaderEvents_sorted {r r' : Readings} (hperm : r.Perm r') (hdistinct : r.Distinct) :
    r.sorted.loaderEvents = r'.sorted.loaderEvents :=
  Recency.insertionSort_eq_of_perm (fun _ _ => Iff.rfl) hperm.loaderEvents hdistinct.loaderEvents

theorem alerts_sorted {r r' : Readings} (hperm : r.Perm r') :
    r.sorted.alerts.Perm r'.sorted.alerts :=
  (List.perm_insertionSort _ _).trans
    (hperm.alerts.trans (List.perm_insertionSort _ _).symm)

theorem any_perm {bs bs' : List Bool} (h : bs.Perm bs') : bs.any id = bs'.any id := by
  rw [Bool.eq_iff_iff, List.any_eq_true, List.any_eq_true]
  exact exists_congr fun b => and_congr_left fun _ => h.mem_iff

/-- Alerts count in any order. -/
theorem health_perm {state : MarketState} {extractor : ExtractorSummary} {loader : LoaderSummary}
    {alerts alerts' : List Alert} {settings : DashboardSettings} {h : Health}
    (hperm : alerts.Perm alerts')
    (hh : host.health state now extractor loader alerts settings = .ok h) :
    host.health state now extractor loader alerts' settings = .ok h := by
  obtain ⟨session, hsession, hh⟩ := Result.bind_eq_ok.mp hh
  obtain ⟨beat, hbeat, hh⟩ := Result.bind_eq_ok.mp hh
  obtain ⟨unresolved, hunresolved, hh⟩ := Result.bind_eq_ok.mp hh
  obtain ⟨unresolved', hunresolved', hany⟩ := Result.mapM_perm hperm hunresolved
  rw [any_perm hany] at hh
  exact Result.bind_eq_ok.mpr ⟨session, hsession, Result.bind_eq_ok.mpr ⟨beat, hbeat,
    Result.bind_eq_ok.mpr ⟨unresolved', hunresolved', hh⟩⟩⟩

/-- Entries in another order make the same document, but for the order of its alerts. -/
theorem buildSnapshot_perm {entries entries' : List Json} {settings : DashboardSettings}
    {inputs : Inputs} {readings : Readings} {doc : Snapshot} (hperm : entries.Perm entries')
    (hread : host.readEntries now entries = .ok readings) (hdistinct : readings.Distinct)
    (hdoc : host.buildSnapshot entries settings now inputs = .ok doc) :
    ∃ doc', host.buildSnapshot entries' settings now inputs = .ok doc' ∧
      doc'.marketState = doc.marketState ∧ doc'.nextExpectedOpenUtc = doc.nextExpectedOpenUtc ∧
      doc'.health = doc.health ∧ doc'.extractor = doc.extractor ∧ doc'.loader = doc.loader ∧
      doc'.table = doc.table ∧ doc'.costs = doc.costs := by
  obtain ⟨state, nextOpen, found, loader, table, costs, health, hmarket, hfound, hloader, htable,
    hcosts, hhealth, rfl⟩ := buildSnapshot_eq_ok.mp hdoc
  cases hread.symm.trans hfound
  obtain ⟨readings', hread', hsame⟩ := readEntries_perm hperm hread
  have hextractor := extractorEvents_sorted hsame hdistinct
  rw [loaderEvents_sorted hsame hdistinct] at hloader
  rw [hextractor] at hhealth
  refine ⟨_, buildSnapshot_eq_ok.mpr ⟨state, nextOpen, readings', loader, table, costs, health,
    hmarket, hread', hloader, htable, hcosts, health_perm (alerts_sorted hsame) hhealth, rfl⟩,
    rfl, rfl, rfl, ?_, rfl, rfl, rfl⟩
  exact congrArg extractorSummary hextractor.symm

theorem afterCommit_reversed : ∃ doc,
    summerHost.buildSnapshot (afterCommit "2026-08-29T11:59:00.500Z").reverse (.default "p")
        saturdayNoon .none = .ok doc ∧
      doc.health = ⟨.unknown, [.noRecentSession]⟩ := by
  obtain ⟨doc, hdoc, hhealth⟩ := sameSecond_document
  have hread : summerHost.readEntries saturdayNoon (afterCommit "2026-08-29T11:59:00.500Z") =
      .ok (afterCommitReadings sameSecond) := rfl
  obtain ⟨doc', hdoc', -, -, hsame, -⟩ := buildSnapshot_perm (List.reverse_perm _).symm hread
    ⟨List.nodup_nil, by decide⟩ hdoc
  exact ⟨doc', hdoc', hsame.trans hhealth⟩

end Lakehouse.Dashboard
