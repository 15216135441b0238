/-
`summarize_cost_snapshot`: the public part of one BigQuery cost aggregate.
-/

import Mathlib.Data.List.Sort
import Lakehouse.Dashboard.Summaries

namespace Lakehouse.Dashboard

/-- Skip a minus. -/
def unsignedPart : List Char → List Char
  | '-' :: rest => rest
  | cs => cs

/-- `re.fullmatch(r"-?\d+(?:\.\d+)?", text)`. -/
def isSeconds (text : String) : Bool :=
  let isDigit (c : Char) := (decimal? c).isSome
  let cs := unsignedPart text.toList
  !(cs.takeWhile isDigit).isEmpty &&
    match cs.dropWhile isDigit with
    | [] => true
    | '.' :: fraction => !fraction.isEmpty && fraction.all isDigit
    | _ => false

/-- The datetime of `_safe_snapshot_timestamp`; a naive one is UTC. -/
def snapshotInstant (text : String) : Py Utc :=
  if isSeconds text then
    match parseFloat text with
    | some x => fromTimestamp x
    | none => .error .valueError
  else
    match fromisoformat (replaceZulu text) with
    | some (wall, some utcOffset) => Utc.ofMicros (wall.micros - utcOffset)
    | some (wall, none) => .ok wall
    | none => .error .valueError

/-- The `except` clause of `_safe_snapshot_timestamp`. -/
def PyError.isSnapshotError (e : PyError) : Bool :=
  e.isValueError || e == .overflowError || e == .osError

/-- `_safe_snapshot_timestamp`. -/
def safeSnapshotTimestamp (value : Json) : Py (Option UtcText) :=
  match value with
  | .str text =>
      match snapshotInstant text with
      | .ok t => .ok (some (.of t))
      | .error e => if e.isSnapshotError then .ok none else .error e
  | _ => .ok none

/-- `_safe_cost`. An `OverflowError` of `float` is not caught. -/
def safeCost (value : Json) : Py (Option Float) :=
  match value with
  | .bool _ => .ok none
  | value =>
      match floatOf value with
      | .ok x => .ok (if x.isNaN || x.isInf then none else some (Double.roundTo 2 x))
      | .error e => if e == .typeError || e.isValueError then .ok none else .error e

/-- The body of the loop of `_safe_daily_costs`. -/
def safeDailyCost (item : Json) : Py (Option DailyCost) :=
  match item with
  | .obj d =>
      match dictGet d "day_utc" with
      | .str text =>
          if h : (fromisoformat text).isSome then do
            let cost ← safeCost (dictGet d "net_cost")
            return cost.map fun x => ⟨⟨text, h⟩, x⟩
          else .ok none
      | _ => .ok none
  | _ => .ok none

def DailyCost.Le (a b : DailyCost) : Prop := ¬ b.dayUtc.text < a.dayUtc.text

instance : DecidableRel DailyCost.Le := fun a b =>
  inferInstanceAs (Decidable (¬ b.dayUtc.text < a.dayUtc.text))

/-- `_safe_daily_costs`. -/
def safeDailyCosts (value : Json) : Py (List DailyCost) :=
  match value with
  | .arr items => do
      let daily ← items.mapM safeDailyCost
      return sliceFrom ((daily.filterMap id).insertionSort DailyCost.Le) (-7)
  | _ => .ok []

/-- The body of the loop of `_safe_top_services`. -/
def safeTopService (item : Json) : Py (Option ServiceCost) :=
  match item with
  | .obj d => do
      let cost ← safeCost (dictGet d "net_cost")
      match dictGet d "service_name" with
      | .str name =>
          if h : isServiceName name then return cost.map fun x => ⟨⟨name, h⟩, x⟩
          else return none
      | _ => return none
  | _ => .ok none

/-- `_safe_top_services`. -/
def safeTopServices (value : Json) : Py (List ServiceCost) :=
  match value with
  | .arr items => do
      let services ← (items.take 3).mapM safeTopService
      return services.filterMap id
  | _ => .ok []

/-- `_unavailable_costs`. -/
def unavailableCosts (reason : String) : CostSummary :=
  { status := .unavailable, reason := some reason, currency := none, aggregatedAtUtc := none
    sourceExportedAtUtc := none, todayNetCost := none, sevenDayNetCost := none
    monthToDateNetCost := none, dailyCosts := [], topServices := [] }

/-- `summarize_cost_snapshot` of a snapshot with a currency. -/
def costFigures (snapshot : Dict) (currency : Currency) (now : Utc) : Py CostSummary := do
  let aggregatedAt ← safeSnapshotTimestamp (dictGet snapshot "aggregated_at_utc")
  let sourceExportedAtUtc ← safeSnapshotTimestamp (dictGet snapshot "source_exported_at_utc")
  let sevenDay ← safeCost (dictGet snapshot "seven_day_net_cost")
  let monthToDate ← safeCost (dictGet snapshot "month_to_date_net_cost")
  let dailyCosts ← safeDailyCosts (dictGet snapshot "daily_costs")
  let topServices ← safeTopServices (dictGet snapshot "top_services")
  match aggregatedAt, sevenDay, monthToDate with
  | some aggregatedAtUtc, some sevenDayNetCost, some monthToDateNetCost =>
      let today := dailyCosts.find? fun item => item.dayUtc.text == now.dateText
      return {
        status := .available
        reason := none
        currency := some currency
        aggregatedAtUtc := some aggregatedAtUtc
        sourceExportedAtUtc
        todayNetCost := today.map DailyCost.netCost
        sevenDayNetCost := some sevenDayNetCost
        monthToDateNetCost := some monthToDateNetCost
        dailyCosts
        topServices }
  | _, _, _ => return unavailableCosts "invalid_snapshot"

/-- `summarize_cost_snapshot`. -/
def summarizeCostSnapshot (snapshot : Json) (now : Utc) (unavailableReason : String) :
    Py CostSummary :=
  match snapshot with
  | .obj snapshot =>
      match dictGet snapshot "currency" with
      | .str text =>
          if h : isCurrency text then costFigures snapshot ⟨text, h⟩ now
          else .ok (unavailableCosts "invalid_snapshot")
      | _ => .ok (unavailableCosts "invalid_snapshot")
  | _ => .ok (unavailableCosts unavailableReason)

end Lakehouse.Dashboard
