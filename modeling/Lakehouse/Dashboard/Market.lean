/-
`market_state` and `_opening_utc`: the weekday schedule of the New York market.

A date is a day number and a time of day a number of microseconds.
-/

import Lakehouse.Dashboard.Document
import Lakehouse.Lib.Result

namespace Lakehouse.Dashboard

/-- `candidate + timedelta(days=days)`. -/
def addDays (candidate days : Int) : Py Int :=
  if firstDay ≤ candidate + days ∧ candidate + days ≤ lastDay then .ok (candidate + days)
  else .error .overflowError

def minuteMicros : Int := 60000000

/-- The opening time, 09:30. -/
def openingTime : Int := 570 * minuteMicros

/-- The `while` loop of `_opening_utc`; `fuel` bounds its rounds. -/
def skipWeekend : Nat → Int → Py Int
  | 0, candidate => .ok candidate
  | fuel + 1, candidate =>
      if 5 ≤ Calendar.weekday candidate then do
        let next ← addDays candidate 1
        skipWeekend fuel next
      else .ok candidate

/-- `_opening_utc`. -/
def Host.openingUtc (host : Host) (candidate : Int) : Py Utc := do
  let day ← skipWeekend 2 candidate
  host.newYork.instant (day * dayMicros + openingTime)

/-- `market_state`. -/
def Host.marketState (host : Host) (now : Utc) : Py (MarketState × Utc) := do
  let clock ← host.newYork.clock now
  let candidate := clock / dayMicros
  let timeOfDay := clock % dayMicros
  if 5 ≤ Calendar.weekday candidate then
    let candidate ← addDays candidate (7 - Calendar.weekday candidate)
    let opening ← host.openingUtc candidate
    return (.weekend, opening)
  else if timeOfDay < openingTime then
    let opening ← host.openingUtc candidate
    return (.preOpen, opening)
  else
    let candidate ← addDays candidate 1
    let opening ← host.openingUtc candidate
    if timeOfDay < 960 * minuteMicros then return (.marketOpen, opening)
    else if timeOfDay < 1020 * minuteMicros then return (.settling, opening)
    else return (.closed, opening)

end Lakehouse.Dashboard
