/-
The proleptic Gregorian calendar on day numbers.

Day `0` is 1970-01-01. `Date.ofDays` and `Date.toDays` convert between a day
number and a year, month and day by whole 400-year eras (146097 days) counted
from 1 March of year 0, so that the leap day is the last day of its year.
-/

import Mathlib.Data.Int.Basic
import Lakehouse.Lib.Scan

namespace Calendar

open Scan (digits digitValue)

/-- A calendar date. -/
structure Date where
  year : Int
  month : Nat
  day : Nat
deriving DecidableEq, Repr

def isLeap (year : Int) : Bool :=
  (year % 4 == 0 && year % 100 != 0) || year % 400 == 0

def daysInMonth (year : Int) (month : Nat) : Nat :=
  if month = 2 then (if isLeap year then 29 else 28)
  else if month = 4 ∨ month = 6 ∨ month = 9 ∨ month = 11 then 30
  else 31

/-- A day, month and year that name a date. -/
def Date.Valid (d : Date) : Prop :=
  1 ≤ d.month ∧ d.month ≤ 12 ∧ 1 ≤ d.day ∧ d.day ≤ daysInMonth d.year d.month

instance (d : Date) : Decidable d.Valid :=
  inferInstanceAs (Decidable (_ ∧ _ ∧ _ ∧ _))

/-- The date of a day number. -/
def Date.ofDays (days : Int) : Date :=
  let z := days + 719468
  let era := z / 146097
  let dayOfEra := z - era * 146097
  let yearOfEra :=
    (dayOfEra - dayOfEra / 1460 + dayOfEra / 36524 - dayOfEra / 146096) / 365
  let dayOfYear := dayOfEra - (365 * yearOfEra + yearOfEra / 4 - yearOfEra / 100)
  let shifted := (5 * dayOfYear + 2) / 153
  let day := dayOfYear - (153 * shifted + 2) / 5 + 1
  let month := if shifted < 10 then shifted + 3 else shifted - 9
  let year := yearOfEra + era * 400 + (if month ≤ 2 then 1 else 0)
  ⟨year, month.toNat, day.toNat⟩

/-- The day number of a date. -/
def Date.toDays (d : Date) : Int :=
  let year := if d.month ≤ 2 then d.year - 1 else d.year
  let era := year / 400
  let yearOfEra := year - era * 400
  let shifted : Int := if 2 < d.month then (d.month : Int) - 3 else (d.month : Int) + 9
  let dayOfYear := (153 * shifted + 2) / 5 + (d.day : Int) - 1
  let dayOfEra := yearOfEra * 365 + yearOfEra / 4 - yearOfEra / 100 + dayOfYear
  era * 146097 + dayOfEra - 719468

/-- Monday is `0`; 1970-01-01 was a Thursday. -/
def weekday (days : Int) : Int := (days + 3) % 7

example : Date.ofDays 20699 = ⟨2026, 9, 3⟩ ∧ (Date.mk 2026 9 3).toDays = 20699 := by decide

/-! ### Day numbers and dates

An era is four centuries of 25 leap cycles each, and every century but the last
ends a day early. -/

theorem yearOfEra_eq {c k r doe : Int} (hc : 0 ≤ c ∧ c ≤ 3) (hk : 0 ≤ k ∧ k ≤ 24)
    (hr : 0 ≤ r ∧ r ≤ 1460) (hlast : c < 3 → k = 24 → r ≤ 1459)
    (h : doe = 36524 * c + 1461 * k + r) :
    (doe - doe / 1460 + doe / 36524 - doe / 146096) / 365 = 100 * c + 4 * k + min 3 (r / 365) := by
  have h1 : doe / 1460 = 25 * c + k + (24 * c + k + r) / 1460 := by omega
  have h2 : doe / 36524 - doe / 146096 = c := by
    by_cases hend : 1461 * k + r = 36524
    · obtain rfl : c = 3 := by omega
      obtain rfl : doe = 146096 := by omega
      decide
    · have hcentury : doe / 36524 = c := by omega
      have hera : doe / 146096 = 0 := by omega
      omega
  have h3 : doe - doe / 1460 + doe / 36524 - doe / 146096 =
      36500 * c + 1460 * k + (r - (24 * c + k + r) / 1460) := by omega
  rw [h3]
  omega

theorem exists_cycle {doe : Int} (h : 0 ≤ doe ∧ doe < 146097) :
    ∃ c k r : Int, (0 ≤ c ∧ c ≤ 3) ∧ (0 ≤ k ∧ k ≤ 24) ∧ (0 ≤ r ∧ r ≤ 1460) ∧
      (c < 3 → k = 24 → r ≤ 1459) ∧ doe = 36524 * c + 1461 * k + r :=
  ⟨min 3 (doe / 36524), (doe - 36524 * min 3 (doe / 36524)) / 1461,
      (doe - 36524 * min 3 (doe / 36524)) % 1461, by omega⟩

theorem yearOfEra_spec {doe y doy : Int} (h : 0 ≤ doe ∧ doe < 146097)
    (hy : y = (doe - doe / 1460 + doe / 36524 - doe / 146096) / 365)
    (hdoy : doy = doe - (365 * y + y / 4 - y / 100)) :
    (0 ≤ y ∧ y < 400) ∧ (0 ≤ doy ∧ doy ≤ 365) ∧ (doy = 365 → isLeap (y + 1) = true) := by
  obtain ⟨c, k, r, hc, hk, hr, hlast, hdoe⟩ := exists_cycle h
  rw [yearOfEra_eq hc hk hr hlast hdoe] at hy
  have hquad : y / 4 = 25 * c + k := by omega
  have hcentury : y / 100 = c := by omega
  have hdoy : doy = r - 365 * min 3 (r / 365) := by omega
  refine ⟨by omega, by omega, fun hend => ?_⟩
  have hr : r = 1460 := by omega
  have hy1 : y + 1 = 100 * c + 4 * (k + 1) := by omega
  simp only [isLeap, Bool.or_eq_true, Bool.and_eq_true, beq_iff_eq, bne_iff_ne]
  by_cases hk24 : k = 24
  · right
    omega
  · left
    omega

/-- The date of the day `doy` of the year of the era that starts on 1 March. -/
def Date.ofParts (era y doy : Int) : Date :=
  let shifted := (5 * doy + 2) / 153
  let day := doy - (153 * shifted + 2) / 5 + 1
  let month := if shifted < 10 then shifted + 3 else shifted - 9
  let year := y + era * 400 + (if month ≤ 2 then 1 else 0)
  ⟨year, month.toNat, day.toNat⟩

theorem ofDays_eq_ofParts (days : Int) : ∃ era y doy, (0 ≤ y ∧ y < 400) ∧ (0 ≤ doy ∧ doy ≤ 365) ∧
    (doy = 365 → isLeap (y + 1) = true) ∧
    days = era * 146097 + (365 * y + y / 4 - y / 100) + doy - 719468 ∧
    Date.ofDays days = Date.ofParts era y doy := by
  have hdoe : 0 ≤ days + 719468 - (days + 719468) / 146097 * 146097 ∧
    days + 719468 - (days + 719468) / 146097 * 146097 < 146097 := by omega
  obtain ⟨hy, hdoy, hleap⟩ := yearOfEra_spec hdoe rfl rfl
  exact ⟨_, _, _, hy, hdoy, hleap, by omega, rfl⟩


theorem ofParts_early {era y doy s : Int} (hs : s = (5 * doy + 2) / 153) (h : s < 10) (h0 : 0 ≤ s) :
    Date.ofParts era y doy =
      ⟨y + era * 400, (s + 3).toNat, (doy - (153 * s + 2) / 5 + 1).toNat⟩ := by
  subst hs
  have hmonth : ¬ (5 * doy + 2) / 153 + 3 ≤ 2 := by omega
  simp only [Date.ofParts, if_pos h, if_neg hmonth, Int.add_zero]

theorem ofParts_late {era y doy s : Int} (hs : s = (5 * doy + 2) / 153) (h : 10 ≤ s) (h11 : s ≤ 11) :
    Date.ofParts era y doy =
      ⟨y + era * 400 + 1, (s - 9).toNat, (doy - (153 * s + 2) / 5 + 1).toNat⟩ := by
  subst hs
  have hmonth : (5 * doy + 2) / 153 - 9 ≤ 2 := by omega
  simp only [Date.ofParts, if_neg (Int.not_lt.mpr h), if_pos hmonth]

theorem toDays_ofParts {era y doy : Int} (hy : 0 ≤ y ∧ y < 400) (hdoy : 0 ≤ doy ∧ doy ≤ 365) :
    (Date.ofParts era y doy).toDays = era * 146097 + (365 * y + y / 4 - y / 100) + doy - 719468 := by
  obtain ⟨s, hs⟩ : ∃ s, s = (5 * doy + 2) / 153 := ⟨_, rfl⟩
  have hday : 0 ≤ doy - (153 * s + 2) / 5 := by omega
  by_cases hlate : s < 10
  · have hera : (y + era * 400) / 400 = era := by omega
    have h2 : ¬ (s + 3).toNat ≤ 2 := by omega
    have h3 : 2 < (s + 3).toNat := by omega
    rw [ofParts_early hs hlate (by omega)]
    simp only [Date.toDays, if_neg h2, if_pos h3, hera]
    omega
  · have hera : (y + era * 400 + 1 - 1) / 400 = era := by omega
    have h2 : (s - 9).toNat ≤ 2 := by omega
    have h3 : ¬ 2 < (s - 9).toNat := by omega
    rw [ofParts_late hs (by omega) (by omega)]
    simp only [Date.toDays, if_pos h2, if_neg h3, hera]
    omega

/-- Every day number is the number of its date. -/
theorem toDays_ofDays (days : Int) : (Date.ofDays days).toDays = days := by
  obtain ⟨era, y, doy, hy, hdoy, -, hdays, hdate⟩ := ofDays_eq_ofParts days
  rw [hdate, toDays_ofParts hy hdoy, hdays]

theorem isLeap_add_era (y era : Int) : isLeap (y + era * 400) = isLeap y := by
  simp only [isLeap]
  have h4 : (y + era * 400) % 4 = y % 4 := by omega
  have h100 : (y + era * 400) % 100 = y % 100 := by omega
  have h400 : (y + era * 400) % 400 = y % 400 := by omega
  rw [h4, h100, h400]

theorem valid_ofDays (days : Int) : (Date.ofDays days).Valid := by
  obtain ⟨era, y, doy, hy, hdoy, hleap, -, hdate⟩ := ofDays_eq_ofParts days
  obtain ⟨s, hs⟩ : ∃ s, s = (5 * doy + 2) / 153 := ⟨_, rfl⟩
  rw [hdate]
  by_cases hlate : s < 10
  · rw [ofParts_early hs hlate (by omega)]
    have hmonth : (s + 3).toNat ≠ 2 := by omega
    simp only [Date.Valid, daysInMonth, if_neg hmonth]
    have hcases : s = 0 ∨ s = 1 ∨ s = 2 ∨ s = 3 ∨ s = 4 ∨ s = 5 ∨ s = 6 ∨ s = 7 ∨ s = 8 ∨ s = 9 := by
      omega
    rcases hcases with rfl | rfl | rfl | rfl | rfl | rfl | rfl | rfl | rfl | rfl <;>
      simp <;> omega
  · rw [ofParts_late hs (by omega) (by omega)]
    have hcases : s = 10 ∨ s = 11 := by omega
    rcases hcases with rfl | rfl
    · simp [Date.Valid, daysInMonth]
      omega
    · have hyear : isLeap (y + era * 400 + 1) = isLeap (y + 1) := by
        rw [← isLeap_add_era (y + 1) era]
        congr 1
        omega
      simp only [Date.Valid, daysInMonth, hyear]
      simp
      split
      · omega
      · rename_i hcommon
        have hnotend : doy ≠ 365 := fun hend => hcommon (hleap hend)
        omega

/-- The day numbers of the years 1 to 9999. -/
theorem year_ofDays_iff (days : Int) :
    1 ≤ (Date.ofDays days).year ∧ (Date.ofDays days).year ≤ 9999 ↔
      -719162 ≤ days ∧ days ≤ 2932896 := by
  obtain ⟨era, y, doy, hy, hdoy, -, hdays, hdate⟩ := ofDays_eq_ofParts days
  obtain ⟨s, hs⟩ : ∃ s, s = (5 * doy + 2) / 153 := ⟨_, rfl⟩
  rw [hdate]
  by_cases hlate : s < 10
  · rw [ofParts_early hs hlate (by omega)]
    dsimp only
    omega
  · rw [ofParts_late hs (by omega) (by omega)]
    dsimp only
    omega

/-! ### Padded numbers -/

/-- A natural number in decimal, padded with zeros to at least `width` digits. -/
def padded (width n : Nat) : List Char :=
  List.replicate (width - (Nat.toDigits 10 n).length) '0' ++ Nat.toDigits 10 n

/-- Every character of a padded number is a decimal digit. -/
theorem isDigit_of_mem_padded {width n : Nat} {c : Char} (h : c ∈ padded width n) :
    c.isDigit = true := by
  rcases List.mem_append.mp h with h | h
  · rw [List.eq_of_mem_replicate h]
    decide
  · exact Nat.isDigit_of_mem_toDigits (by decide) (by decide) h

theorem padded_of_lt {n : Nat} (h : n < 10) : padded 1 n = [Nat.digitChar n] := by
  rw [padded, Nat.toDigits_of_lt_base h]
  rfl

theorem padded_snoc {width : Nat} (hw : 1 ≤ width) (n : Nat) :
    padded (width + 1) n = padded width (n / 10) ++ [Nat.digitChar (n % 10)] := by
  unfold padded
  by_cases hn : n < 10
  · have hdiv : n / 10 = 0 := by omega
    have hmod : n % 10 = n := by omega
    obtain ⟨k, rfl⟩ : ∃ k, width = k + 1 := ⟨width - 1, by omega⟩
    rw [hdiv, hmod, Nat.toDigits_of_lt_base hn, Nat.toDigits_of_lt_base (by decide : 0 < 10)]
    simp only [List.length_singleton, Nat.add_sub_cancel, List.replicate_succ']
    rfl
  · have hsplit : Nat.toDigits 10 n = Nat.toDigits 10 (n / 10) ++ [Nat.digitChar (n % 10)] := by
      rw [← Nat.toDigits_of_lt_base (by omega : n % 10 < 10),
        Nat.toDigits_append_toDigits (by decide) (by omega) (by omega), Nat.div_add_mod]
    rw [hsplit, List.length_append, List.length_singleton, Nat.add_sub_add_right, List.append_assoc]

theorem padded_cons {width : Nat} (hw : 1 ≤ width) {n : Nat} (hn : n < 10 ^ (width + 1)) :
    padded (width + 1) n = Nat.digitChar (n / 10 ^ width) :: padded width (n % 10 ^ width) := by
  induction width, hw using Nat.le_induction generalizing n with
  | base =>
      rw [padded_snoc (Nat.le_refl 1), padded_of_lt (by omega), padded_of_lt (by omega)]
      rfl
  | succ width hw ih =>
      have htens : n / 10 % 10 ^ width = n % 10 ^ (width + 1) / 10 := by
        rw [Nat.pow_succ, Nat.mul_comm, Nat.mod_mul_right_div_self]
      have hunits : n % 10 ^ (width + 1) % 10 = n % 10 := by
        rw [Nat.mod_mod_of_dvd _ ⟨10 ^ width, by rw [Nat.pow_succ, Nat.mul_comm]⟩]
      have hhead : n / 10 / 10 ^ width = n / 10 ^ (width + 1) := by
        rw [Nat.div_div_eq_div_mul, Nat.pow_succ, Nat.mul_comm]
      rw [padded_snoc (by omega), ih (by rw [Nat.pow_succ] at hn; omega), padded_snoc hw, htens,
        hunits, hhead, List.cons_append]

theorem isDigit_digitChar {n : Nat} (h : n < 10) : (Nat.digitChar n).isDigit = true :=
  (by decide : ∀ n < 10, (Nat.digitChar n).isDigit = true) n h

theorem digitValue_digitChar {n : Nat} (h : n < 10) : digitValue (Nat.digitChar n) = n :=
  (by decide : ∀ n < 10, digitValue (Nat.digitChar n) = n) n h

/-- A padded number is read back. -/
theorem digits_padded {width : Nat} (hw : 1 ≤ width) {n : Nat} (hn : n < 10 ^ width)
    (rest : List Char) : digits width (padded width n ++ rest) = some (n, rest) := by
  induction width, hw using Nat.le_induction generalizing n with
  | base =>
      rw [padded_of_lt (by simpa using hn)]
      simp [digits, isDigit_digitChar (by simpa using hn), digitValue_digitChar (by simpa using hn)]
  | succ width hw ih =>
      have hhead : n / 10 ^ width < 10 := by
        rw [Nat.div_lt_iff_lt_mul (Nat.pow_pos (by decide)), Nat.mul_comm, ← Nat.pow_succ]
        exact hn
      rw [padded_cons hw hn, List.cons_append, digits, if_pos (isDigit_digitChar hhead),
        ih (Nat.mod_lt _ (Nat.pow_pos (by decide))), digitValue_digitChar hhead]
      simp [Nat.div_add_mod']

theorem length_padded {width : Nat} (hw : 1 ≤ width) {n : Nat} (hn : n < 10 ^ width) :
    (padded width n).length = width := by
  induction width, hw using Nat.le_induction generalizing n with
  | base =>
      rw [padded_of_lt (by simpa using hn)]
      rfl
  | succ width hw ih =>
      rw [padded_cons hw hn, List.length_cons, ih (Nat.mod_lt _ (Nat.pow_pos (by decide)))]

/-- The first digits of a padded number, and the others. -/
theorem padded_add {width more : Nat} (hw : 1 ≤ width) (hm : 1 ≤ more) {n : Nat}
    (hn : n < 10 ^ (width + more)) :
    padded (width + more) n = padded width (n / 10 ^ more) ++ padded more (n % 10 ^ more) := by
  induction width, hw using Nat.le_induction generalizing n with
  | base =>
      have hhead : n / 10 ^ more < 10 := by
        rw [Nat.div_lt_iff_lt_mul (Nat.pow_pos (by decide)), ← Nat.pow_add_one']
        rwa [Nat.add_comm] at hn
      rw [Nat.add_comm, padded_cons hm (by rwa [Nat.add_comm] at hn), padded_of_lt hhead,
        List.singleton_append]
  | succ width hw ih =>
      have hsplit : n % 10 ^ (width + more) / 10 ^ more = n / 10 ^ more % 10 ^ width := by
        rw [Nat.add_comm, Nat.pow_add, Nat.mod_mul_right_div_self]
      have hlow : n % 10 ^ (width + more) % 10 ^ more = n % 10 ^ more :=
        Nat.mod_mod_of_dvd _ ⟨10 ^ width, by rw [Nat.pow_add, Nat.mul_comm]⟩
      have hhead : n / 10 ^ more / 10 ^ width = n / 10 ^ (width + more) := by
        rw [Nat.div_div_eq_div_mul, Nat.add_comm, Nat.pow_add]
      have hbound : n / 10 ^ more < 10 ^ (width + 1) := by
        rw [Nat.div_lt_iff_lt_mul (Nat.pow_pos (by decide)), ← Nat.pow_add]
        exact hn
      rw [Nat.add_right_comm] at hn ⊢
      rw [padded_cons (by omega) hn, ih (Nat.mod_lt _ (Nat.pow_pos (by decide))),
        padded_cons hw hbound, hsplit, hlow, hhead, List.cons_append]

end Calendar
