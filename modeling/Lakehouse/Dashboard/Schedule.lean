/-
The weekday schedule of the market, over the whole calendar.

What is assumed of New York's zone is that 09:30 of each date is one instant and
that its clock tells what is before it. The next opening is then that of the
first weekday whose 09:30 the clock has not reached.

* `nextWeekday`: what the loop of `_opening_utc` finds.
* `openingUtc_eq`: the opening it returns.
* `marketState_schedule`: the state by the clock, and the next opening.
* `lastAfternoon_raises`: the calendar ends with 9999.
-/

import Lakehouse.Dashboard.BuildSnapshot

namespace Lakehouse.Dashboard

/-! ### Weekdays -/

/-- The first weekday from a date on. -/
def nextWeekday (candidate : Int) : Int :=
  if Calendar.weekday candidate < 5 then candidate else candidate + (7 - Calendar.weekday candidate)

theorem weekday_nextWeekday (candidate : Int) : Calendar.weekday (nextWeekday candidate) < 5 := by
  unfold nextWeekday
  split
  · assumption
  · unfold Calendar.weekday
    omega

theorem le_nextWeekday (candidate : Int) : candidate ≤ nextWeekday candidate := by
  unfold nextWeekday Calendar.weekday
  split <;> omega

theorem nextWeekday_le {candidate d : Int} (hle : candidate ≤ d) (hd : Calendar.weekday d < 5) :
    nextWeekday candidate ≤ d := by
  unfold nextWeekday Calendar.weekday at *
  split <;> omega

/-- The weekday after a weekend is the Monday. -/
theorem nextWeekday_of_weekend {today candidate : Int} (h : 5 ≤ Calendar.weekday today)
    (hfirst : today ≤ candidate) (hlast : candidate ≤ today + (7 - Calendar.weekday today)) :
    nextWeekday candidate = today + (7 - Calendar.weekday today) := by
  unfold nextWeekday Calendar.weekday at *
  split <;> omega

theorem addDays_eq {candidate days : Int} (hfirst : firstDay ≤ candidate + days)
    (hlast : candidate + days ≤ lastDay) : addDays candidate days = .ok (candidate + days) :=
  if_pos ⟨hfirst, hlast⟩

theorem skipWeekend_weekday {candidate : Int} (h : Calendar.weekday candidate < 5) (fuel : Nat) :
    skipWeekend fuel candidate = .ok candidate := by
  cases fuel with
  | zero => rfl
  | succ fuel =>
      unfold skipWeekend
      exact if_neg (Int.not_le.mpr h)

theorem skipWeekend_weekend {candidate : Int} (h : 5 ≤ Calendar.weekday candidate)
    (hfirst : firstDay ≤ candidate + 1) (hlast : candidate + 1 ≤ lastDay) (fuel : Nat) :
    skipWeekend (fuel + 1) candidate = skipWeekend fuel (candidate + 1) := by
  rw [skipWeekend, if_pos h, addDays_eq hfirst hlast]
  rfl

/-- The loop ends at the first weekday. -/
theorem skipWeekend_eq {candidate : Int} (hfirst : firstDay ≤ candidate)
    (hlast : nextWeekday candidate ≤ lastDay) : skipWeekend 2 candidate = .ok (nextWeekday candidate) := by
  unfold nextWeekday at hlast ⊢
  by_cases hweekday : Calendar.weekday candidate < 5
  · rw [if_pos hweekday]
    exact skipWeekend_weekday hweekday 2
  · rw [if_neg hweekday] at hlast ⊢
    have hweekend := Int.not_lt.mp hweekday
    have hrange : Calendar.weekday candidate < 7 := Int.emod_lt_of_pos _ (by decide)
    rw [skipWeekend_weekend hweekend (by omega) (by omega)]
    -- a Sunday takes one round and a Saturday two
    by_cases hsunday : Calendar.weekday candidate = 6
    · have hmonday : Calendar.weekday (candidate + 1) < 5 := by
        unfold Calendar.weekday at hsunday ⊢
        omega
      rw [skipWeekend_weekday hmonday, hsunday]
      rfl
    · have hsaturday : Calendar.weekday candidate = 5 := by omega
      have hnext : 5 ≤ Calendar.weekday (candidate + 1) := by
        unfold Calendar.weekday at hsaturday ⊢
        omega
      rw [skipWeekend_weekend hnext (by omega) (by omega), hsaturday]
      exact congrArg Except.ok (by omega)

/-! ### The schedule -/

/-- When the market is in a state, by the weekday and the time of day. -/
def MarketState.At (weekday timeOfDay : Int) : MarketState → Prop
  | .weekend => 5 ≤ weekday
  | .preOpen => weekday < 5 ∧ timeOfDay < 570 * minuteMicros
  | .marketOpen => weekday < 5 ∧ 570 * minuteMicros ≤ timeOfDay ∧ timeOfDay < 960 * minuteMicros
  | .settling => weekday < 5 ∧ 960 * minuteMicros ≤ timeOfDay ∧ timeOfDay < 1020 * minuteMicros
  | .closed => weekday < 5 ∧ 1020 * minuteMicros ≤ timeOfDay

theorem MarketState.at_unique {weekday timeOfDay : Int} {a b : MarketState}
    (ha : a.At weekday timeOfDay) (hb : b.At weekday timeOfDay) : a = b := by
  cases a <;> cases b <;> simp only [MarketState.At, minuteMicros] at ha hb ⊢ <;> omega

/-- What the exporter relies on in a zone: 09:30 of a date is one instant, and the clock
tells which instants are before it. -/
structure Zone.Opens (zone : Zone) (opening : Int → Utc) : Prop where
  instant_eq : ∀ d, firstDay ≤ d → d ≤ lastDay →
    zone.instant (d * dayMicros + openingTime) = .ok (opening d)
  increasing : ∀ d d', firstDay ≤ d → d < d' → d' ≤ lastDay →
    (opening d).micros < (opening d').micros
  before_iff : ∀ t wall d, zone.clock t = .ok wall → firstDay ≤ d → d ≤ lastDay →
    (t.micros < (opening d).micros ↔ wall < d * dayMicros + openingTime)
  dated : ∀ t wall, zone.clock t = .ok wall →
    firstDay * dayMicros ≤ wall ∧ wall < (lastDay + 1) * dayMicros

/-- The first date whose 09:30 the clock has not reached. -/
def firstUnopened (wall : Int) : Int :=
  if wall % dayMicros < openingTime then wall / dayMicros else wall / dayMicros + 1

theorem firstUnopened_le_iff {wall d : Int} :
    firstUnopened wall ≤ d ↔ wall < d * dayMicros + openingTime := by
  unfold firstUnopened openingTime minuteMicros dayMicros
  split <;> omega

section Openings

variable {host : Host} {opening : Int → Utc} (hzone : host.newYork.Opens opening)

include hzone

theorem openingUtc_eq {candidate : Int} (hfirst : firstDay ≤ candidate)
    (hlast : nextWeekday candidate ≤ lastDay) :
    host.openingUtc candidate = .ok (opening (nextWeekday candidate)) := by
  have hrange := le_nextWeekday candidate
  unfold Host.openingUtc
  rw [skipWeekend_eq hfirst hlast]
  exact hzone.instant_eq _ (by omega) hlast

/-- The state, and the opening of the first weekday not yet opened. -/
theorem marketState_eq {now : Utc} {wall : Int} (hclock : host.newYork.clock now = .ok wall)
    (hlast : nextWeekday (firstUnopened wall) ≤ lastDay) :
    ∃ state : MarketState,
      host.marketState now = .ok (state, opening (nextWeekday (firstUnopened wall))) ∧
        state.At (Calendar.weekday (wall / dayMicros)) (wall % dayMicros) := by
  have hfirst : firstDay ≤ wall / dayMicros := by
    have := hzone.dated now wall hclock
    unfold dayMicros at *
    omega
  have hunopened := le_nextWeekday (firstUnopened wall)
  by_cases hweekend : 5 ≤ Calendar.weekday (wall / dayMicros)
  · have hrange : Calendar.weekday (wall / dayMicros) < 7 := Int.emod_lt_of_pos _ (by decide)
    have hcandidate : wall / dayMicros ≤ firstUnopened wall ∧
        firstUnopened wall ≤ wall / dayMicros + 1 := by
      unfold firstUnopened
      split <;> omega
    have hmonday := nextWeekday_of_weekend hweekend hcandidate.1 (by omega)
    have hsame := nextWeekday_of_weekend hweekend (by omega)
      (Int.le_refl (wall / dayMicros + (7 - Calendar.weekday (wall / dayMicros))))
    rw [hmonday] at hlast ⊢
    refine ⟨.weekend, Result.bind_eq_ok.mpr ⟨wall, hclock, ?_⟩, hweekend⟩
    dsimp only
    rw [if_pos hweekend]
    have hopening := openingUtc_eq hzone (by omega) (hsame.symm ▸ hlast)
    rw [hsame] at hopening
    exact Result.bind_eq_ok.mpr ⟨_, addDays_eq (by omega) hlast,
      Result.bind_eq_ok.mpr ⟨_, hopening, rfl⟩⟩
  · by_cases hearly : wall % dayMicros < openingTime
    · have htoday : firstUnopened wall = wall / dayMicros := if_pos hearly
      rw [htoday] at hlast ⊢
      refine ⟨.preOpen, Result.bind_eq_ok.mpr ⟨wall, hclock, ?_⟩, Int.not_le.mp hweekend, hearly⟩
      dsimp only
      rw [if_neg hweekend, if_pos hearly]
      exact Result.bind_eq_ok.mpr ⟨_, openingUtc_eq hzone hfirst hlast, rfl⟩
    · have htomorrow : firstUnopened wall = wall / dayMicros + 1 := if_neg hearly
      rw [htomorrow] at hlast hunopened ⊢
      have hopening := openingUtc_eq hzone (Int.le_add_one hfirst) hlast
      have hday := addDays_eq (Int.le_add_one hfirst) (hunopened.trans hlast)
      by_cases hopen : wall % dayMicros < 960 * minuteMicros
      · refine ⟨.marketOpen, Result.bind_eq_ok.mpr ⟨wall, hclock, ?_⟩, Int.not_le.mp hweekend,
          Int.not_lt.mp hearly, hopen⟩
        dsimp only
        rw [if_neg hweekend, if_neg hearly]
        exact Result.bind_eq_ok.mpr ⟨_, hday, Result.bind_eq_ok.mpr ⟨_, hopening, if_pos hopen⟩⟩
      · by_cases hsettling : wall % dayMicros < 1020 * minuteMicros
        · refine ⟨.settling, Result.bind_eq_ok.mpr ⟨wall, hclock, ?_⟩, Int.not_le.mp hweekend,
            Int.not_lt.mp hopen, hsettling⟩
          dsimp only
          rw [if_neg hweekend, if_neg hearly]
          refine Result.bind_eq_ok.mpr ⟨_, hday, Result.bind_eq_ok.mpr ⟨_, hopening, ?_⟩⟩
          rw [if_neg hopen]
          exact if_pos hsettling
        · refine ⟨.closed, Result.bind_eq_ok.mpr ⟨wall, hclock, ?_⟩, Int.not_le.mp hweekend,
            Int.not_lt.mp hsettling⟩
          dsimp only
          rw [if_neg hweekend, if_neg hearly]
          refine Result.bind_eq_ok.mpr ⟨_, hday, Result.bind_eq_ok.mpr ⟨_, hopening, ?_⟩⟩
          rw [if_neg hopen]
          exact if_neg hsettling

/-- The market's state is that of the weekday schedule, and the next opening is the
first one that is not over. -/
theorem marketState_schedule {now : Utc} {wall : Int} (hclock : host.newYork.clock now = .ok wall)
    (hbefore : now.micros < (opening lastDay).micros) :
    ∃ state d, host.marketState now = .ok (state, opening d) ∧
      (∀ other : MarketState, state = other ↔
        other.At (Calendar.weekday (wall / dayMicros)) (wall % dayMicros)) ∧
      (firstDay ≤ d ∧ d ≤ lastDay ∧ Calendar.weekday d < 5) ∧
      now.micros < (opening d).micros ∧
      ∀ d', firstDay ≤ d' → d' ≤ lastDay → Calendar.weekday d' < 5 →
        now.micros < (opening d').micros → (opening d).micros ≤ (opening d').micros := by
  -- what the clock has not reached is what has not come yet
  have hahead (d : Int) (hfirst : firstDay ≤ d) (hlast : d ≤ lastDay) :
      now.micros < (opening d).micros ↔ firstUnopened wall ≤ d := by
    rw [hzone.before_iff now wall d hclock hfirst hlast, firstUnopened_le_iff]
  have hlast : nextWeekday (firstUnopened wall) ≤ lastDay :=
    nextWeekday_le ((hahead lastDay (by decide) (by decide)).mp hbefore) (by decide)
  have hfirst : firstDay ≤ nextWeekday (firstUnopened wall) := by
    have hdated := hzone.dated now wall hclock
    have hle := le_nextWeekday (firstUnopened wall)
    have hunopened := firstUnopened_le_iff.mp (le_refl (firstUnopened wall))
    unfold dayMicros openingTime minuteMicros at *
    omega
  obtain ⟨state, hstate, hat⟩ := marketState_eq hzone hclock hlast
  refine ⟨state, _, hstate, fun other => ⟨fun h => h ▸ hat, MarketState.at_unique hat⟩,
    ⟨hfirst, hlast, weekday_nextWeekday _⟩, (hahead _ hfirst hlast).mpr (le_nextWeekday _), ?_⟩
  intro d' hfirst' hlast' hweekday hafter
  have hle := nextWeekday_le ((hahead d' hfirst' hlast').mp hafter) hweekday
  rcases hle.lt_or_eq with hlt | heq
  · exact (hzone.increasing _ _ hfirst hlt hlast').le
  · rw [heq]

end Openings

/-! ### A machine with New York four hours behind -/

/-- A zone at a fixed offset whose clock shows datetimes only. -/
def Zone.constant (utcOffset : Int) : Zone where
  clock t := (Utc.ofMicros (t.micros + utcOffset)).map Utc.micros
  instant wall := Utc.ofMicros (wall - utcOffset)

def easternHost : Host :=
  { summerHost with newYork := .constant (-4 * 3600 * 1000000) }

/-- 13:30 UTC of a date. -/
def easternOpening (d : Int) : Utc :=
  (Utc.of? (d * dayMicros + 810 * minuteMicros)).getD saturdayNoon

theorem of?_eq_some {micros : Int} (hfirst : firstDay * dayMicros ≤ micros)
    (hlast : micros < (lastDay + 1) * dayMicros) : Utc.of? micros = some ⟨micros, hfirst, hlast⟩ :=
  dif_pos ⟨hfirst, hlast⟩

theorem micros_easternOpening {d : Int} (hfirst : firstDay ≤ d) (hlast : d ≤ lastDay) :
    (easternOpening d).micros = d * dayMicros + 810 * minuteMicros := by
  unfold easternOpening
  rw [of?_eq_some (by unfold dayMicros minuteMicros; omega) (by unfold dayMicros minuteMicros; omega)]
  rfl

theorem easternHost_opens : easternHost.newYork.Opens easternOpening := by
  have hclock (t : Utc) (wall : Int) (h : easternHost.newYork.clock t = .ok wall) :
      wall = t.micros + -4 * 3600 * 1000000 ∧
        firstDay * dayMicros ≤ wall ∧ wall < (lastDay + 1) * dayMicros := by
    change (Utc.ofMicros (t.micros + -4 * 3600 * 1000000)).map Utc.micros = .ok wall at h
    cases hshown : Utc.ofMicros (t.micros + -4 * 3600 * 1000000) with
    | error e =>
        rw [hshown] at h
        cases h
    | ok shown =>
        rw [hshown] at h
        cases h
        exact ⟨ofMicros_eq_ok hshown, shown.inRange⟩
  constructor
  · intro d hfirst hlast
    have hwall : d * dayMicros + openingTime - -4 * 3600 * 1000000 =
        d * dayMicros + 810 * minuteMicros := by
      unfold openingTime minuteMicros
      omega
    change Utc.ofMicros (d * dayMicros + openingTime - -4 * 3600 * 1000000) = _
    rw [hwall, Utc.ofMicros, easternOpening,
      of?_eq_some (by unfold dayMicros minuteMicros; omega) (by unfold dayMicros minuteMicros; omega)]
    rfl
  · intro d d' hfirst hlt hlast
    rw [micros_easternOpening hfirst (by omega), micros_easternOpening (by omega) hlast]
    unfold dayMicros
    omega
  · intro t wall d h hfirst hlast
    rw [micros_easternOpening hfirst hlast, (hclock t wall h).1]
    unfold openingTime minuteMicros
    omega
  · exact fun t wall h => (hclock t wall h).2

/-- 2026-08-28T20:30:00Z, a Friday. -/
def fridayEvening : Utc := ⟨1787949000000000, by decide⟩

theorem fridayEvening_schedule : ∃ state d,
    easternHost.marketState fridayEvening = .ok (state, easternOpening d) ∧ state = .settling ∧
      Calendar.weekday d < 5 ∧ fridayEvening.micros < (easternOpening d).micros := by
  have hclock : easternHost.newYork.clock fridayEvening = .ok 1787934600000000 := rfl
  obtain ⟨state, d, hstate, hat, ⟨_, _, hweekday⟩, hafter, _⟩ :=
    marketState_schedule easternHost_opens hclock (by decide)
  exact ⟨state, d, hstate, (hat .settling).mpr ⟨by decide, by decide, by decide⟩, hweekday, hafter⟩

/-- 9999-12-31T22:00:00Z. -/
def lastAfternoon : Utc := ⟨lastDay * dayMicros + 1320 * minuteMicros, by decide⟩

/-- After the last opening that is a datetime there is no next one. -/
theorem lastAfternoon_raises : easternHost.newYork.Opens easternOpening ∧
    easternHost.newYork.clock lastAfternoon = .ok (lastDay * dayMicros + 1080 * minuteMicros) ∧
    ¬ ∃ state d, easternHost.marketState lastAfternoon = .ok (state, easternOpening d) := by
  have hraises : easternHost.marketState lastAfternoon = .error .overflowError := rfl
  refine ⟨easternHost_opens, rfl, ?_⟩
  rintro ⟨state, d, h⟩
  rw [hraises] at h
  cases h

end Lakehouse.Dashboard
