/-
`fromisoformat` on the timestamps the pipeline writes.

`isoText` is the form both programs print: a date, a time to the second, perhaps
a fraction, and `Z`. The parser reads its numbers back (`fromisoformat_isoText`),
so a text of `utc_text` is read as the second it was written for
(`parseUtc_utcText`).
-/

import Mathlib.Data.List.GetD
import Mathlib.Data.List.TakeWhile
import Lakehouse.Dashboard.PyTime

namespace Lakehouse.Dashboard

open Calendar (Date padded digits_padded length_padded padded_cons isDigit_digitChar)
open Scan (digits)
open IsoFormat

/-- The fields of a timestamp. -/
structure IsoFields where
  year : Nat
  month : Nat
  day : Nat
  hour : Nat
  minute : Nat
  second : Nat
  /-- The digits behind the point. -/
  fraction : List Char

namespace IsoFields

def dateText (f : IsoFields) : List Char :=
  padded 4 f.year ++ '-' :: padded 2 f.month ++ '-' :: padded 2 f.day

def fractionText (f : IsoFields) : List Char :=
  if f.fraction = [] then [] else '.' :: f.fraction

def clockText (f : IsoFields) : List Char :=
  padded 2 f.hour ++ ':' :: padded 2 f.minute ++ ':' :: padded 2 f.second ++ f.fractionText

/-- The fields fit the columns they are printed in. -/
structure Fits (f : IsoFields) : Prop where
  year : f.year < 10000
  month : f.month < 100
  day : f.day < 100
  hour : f.hour < 100
  minute : f.minute < 100
  second : f.second < 100
  fraction : ∀ c ∈ f.fraction, c.isDigit

/-- The text up to the offset. -/
def body (f : IsoFields) : List Char := f.dateText ++ 'T' :: f.clockText

def date (f : IsoFields) : Date := ⟨f.year, f.month, f.day⟩

/-- The microseconds that count of the fraction. -/
def micros (f : IsoFields) : Nat :=
  JsonReader.natOf (f.fraction.take 6) * 10 ^ (6 - min 6 f.fraction.length)

end IsoFields

/-- A character that neither `replace` nor the encoding touches and that starts no
offset in the time of day. -/
def Plain (c : Char) : Prop := c.isDigit ∨ c = '-' ∨ c = 'T' ∨ c = ':' ∨ c = '.'

theorem plain_of_padded {width n : Nat} {c : Char} (h : c ∈ padded width n) : Plain c :=
  .inl (Calendar.isDigit_of_mem_padded h)

theorem toNat_of_isDigit {c : Char} (h : c.isDigit) : 48 ≤ c.toNat ∧ c.toNat ≤ 57 := by
  simp only [Char.isDigit, Bool.and_eq_true, decide_eq_true_eq] at h
  exact ⟨h.1, h.2⟩

theorem Plain.ascii {c : Char} (h : Plain c) : c.toNat < 0x80 := by
  rcases h with h | rfl | rfl | rfl | rfl
  · have := toNat_of_isDigit h
    omega
  all_goals decide

theorem Plain.ne_Z {c : Char} (h : Plain c) : c ≠ 'Z' := by
  rcases h with h | rfl | rfl | rfl | rfl
  · rintro rfl
    revert h
    decide
  all_goals decide

theorem ne_of_isDigit {c d : Char} (hc : c.isDigit) (hd : d.isDigit = false) : c ≠ d := by
  rintro rfl
  rw [hc] at hd
  cases hd

theorem flatMap_eq_self {f : Char → List Char} {cs : List Char} (h : ∀ c ∈ cs, f c = [c]) :
    cs.flatMap f = cs := by
  induction cs with
  | nil => rfl
  | cons c cs ih =>
      rw [List.flatMap_cons, h c List.mem_cons_self, ih fun d hd => h d (List.mem_cons_of_mem _ hd),
        List.singleton_append]

section Fields

variable {f : IsoFields} (hf : f.Fits)

include hf

theorem plain_body {c : Char} (h : c ∈ f.body) : Plain c := by
  simp only [IsoFields.body, IsoFields.dateText, IsoFields.clockText, List.mem_append,
    List.mem_cons] at h
  rcases h with ((h | rfl | h) | rfl | h) | rfl | ((h | rfl | h) | rfl | h) | h
  · exact plain_of_padded h
  · exact .inr (.inl rfl)
  · exact plain_of_padded h
  · exact .inr (.inl rfl)
  · exact plain_of_padded h
  · exact .inr (.inr (.inl rfl))
  · exact plain_of_padded h
  · exact .inr (.inr (.inr (.inl rfl)))
  · exact plain_of_padded h
  · exact .inr (.inr (.inr (.inl rfl)))
  · exact plain_of_padded h
  · unfold IsoFields.fractionText at h
    split at h
    · cases h
    · rcases List.mem_cons.mp h with rfl | h
      · exact .inr (.inr (.inr (.inr rfl)))
      · exact .inl (hf.fraction c h)

theorem replaceZulu_body : replaceZulu (String.ofList (f.body ++ ['Z'])) =
    String.ofList (f.body ++ "+00:00".toList) := by
  have hbody : f.body.flatMap (fun c => if c = 'Z' then "+00:00".toList else [c]) = f.body :=
    flatMap_eq_self fun c hc => if_neg (plain_body hf hc).ne_Z
  unfold replaceZulu
  simp only [String.toList_ofList, List.flatMap_append, hbody]
  rfl

theorem bytes_body : bytes (String.ofList (f.body ++ "+00:00".toList)) =
    f.body ++ "+00:00".toList := by
  rw [bytes, String.toList_ofList]
  apply flatMap_eq_self
  intro c hc
  apply if_pos
  rcases List.mem_append.mp hc with hc | hc
  · exact (plain_body hf hc).ascii
  · have hascii : ("+00:00".toList.all fun c => decide (c.toNat < 0x80)) = true := rfl
    exact of_decide_eq_true (List.all_eq_true.mp hascii c hc)

omit hf in
theorem exists_padded_cons {width n : Nat} (hw : 1 ≤ width) (hn : n < 10 ^ (width + 1)) :
    ∃ c rest, padded (width + 1) n = c :: rest ∧ c.isDigit := by
  have hhead : n / 10 ^ width < 10 := by
    rw [Nat.div_lt_iff_lt_mul (Nat.pow_pos (by decide)), Nat.mul_comm, ← Nat.pow_succ]
    exact hn
  exact ⟨_, _, padded_cons hw hn, isDigit_digitChar hhead⟩

theorem length_dateText : f.dateText.length = 10 := by
  simp only [IsoFields.dateText, List.length_append, List.length_cons,
    length_padded (show 1 ≤ 4 by decide) hf.year, length_padded (show 1 ≤ 2 by decide) hf.month,
    length_padded (show 1 ≤ 2 by decide) hf.day]

theorem separatorIndex_body (rest : List Char) : separatorIndex (f.dateText ++ 'T' :: rest) = 10 := by
  obtain ⟨c, month, hmonth, hc⟩ := exists_padded_cons (show 1 ≤ 1 from Nat.le_refl 1) hf.month
  have hlength : (f.dateText ++ 'T' :: rest).length ≠ 7 := by
    rw [List.length_append, length_dateText hf]
    omega
  have hyear := length_padded (show 1 ≤ 4 by decide) hf.year
  have hdash : (f.dateText ++ 'T' :: rest).getD 4 '\x00' = '-' := by
    simp only [IsoFields.dateText, List.append_assoc]
    rw [List.getD_append_right _ _ _ _ (by omega), hyear]
    rfl
  have hdigit : (f.dateText ++ 'T' :: rest).getD 5 '\x00' = c := by
    simp only [IsoFields.dateText, List.append_assoc, hmonth]
    rw [List.getD_append_right _ _ _ _ (by omega), hyear]
    rfl
  have hweek : c ≠ 'W' := ne_of_isDigit hc (by decide)
  simp only [separatorIndex, hlength, hdash, hdigit, hweek, if_true, if_false]

theorem date_dateText : IsoFormat.date f.dateText = some f.date := by
  obtain ⟨c, month, hmonth, hc⟩ := exists_padded_cons (show 1 ≤ 1 from Nat.le_refl 1) hf.month
  have hweek : c ≠ 'W' := ne_of_isDigit hc (by decide)
  have hday : digits 2 (padded 2 f.day) = some (f.day, []) := by
    simpa using digits_padded (by decide) hf.day []
  have hread := digits_padded (show 1 ≤ 2 by decide) hf.month ('-' :: padded 2 f.day)
  rw [hmonth] at hread
  unfold IsoFormat.date
  simp only [IsoFields.dateText, List.append_assoc, List.cons_append,
    digits_padded (show 1 ≤ 4 by decide) hf.year]
  rw [List.cons_append] at hread
  simp [hmonth, hweek, hread, hyphen, hday, IsoFields.date]

end Fields

/-! ### The time of day -/

theorem clockFields_colon {fields n : Nat} (hn : n < 100) {colons : Option Bool}
    (hcolons : colons.getD true = true) {rest : List Char} (hrest : rest ≠ []) :
    clockFields (fields + 1) colons (padded 2 n ++ ':' :: rest) =
      (clockFields fields (some true) rest).map fun (values, tail) => (n :: values, tail) := by
  obtain ⟨c, behind, rfl⟩ := List.exists_cons_of_ne_nil hrest
  rw [clockFields, digits_padded (by decide) hn]
  simp only [Option.bind_eq_bind, Option.bind_some, decide_true, hcolons, and_self, if_true]
  cases clockFields fields (some true) (c :: behind) <;> rfl

theorem clockFields_end {fields n : Nat} (hn : n < 100) (colons : Option Bool) :
    clockFields (fields + 1) colons (padded 2 n) = some ([n], .done false) := by
  have hread : digits 2 (padded 2 n) = some (n, []) := by
    simpa using digits_padded (by decide) hn []
  rw [clockFields, hread]
  rfl

theorem clockFields_point {fields n : Nat} (hn : n < 100) {rest : List Char} (hrest : rest ≠ []) :
    clockFields (fields + 1) (some true) (padded 2 n ++ '.' :: rest) =
      some ([n], .fraction rest) := by
  obtain ⟨c, behind, rfl⟩ := List.exists_cons_of_ne_nil hrest
  rw [clockFields, digits_padded (by decide) hn]
  rfl

theorem fraction_of_isDigit {cs : List Char} (h : ∀ c ∈ cs, c.isDigit) :
    fraction cs =
      some (JsonReader.natOf (cs.take 6) * 10 ^ (6 - min 6 cs.length), false) := by
  have hrest : (cs.drop (min 6 cs.length)).dropWhile Char.isDigit = [] := by
    rw [List.dropWhile_eq_nil_iff]
    exact fun c hc => h c (List.mem_of_mem_drop hc)
  have htake : cs.take (min 6 cs.length) = cs.take 6 := by
    rw [List.take_eq_take_iff]
    omega
  simp only [fraction, JsonReader.digits_eq_natOf h (Nat.min_le_right 6 cs.length), Option.bind_eq_bind,
    Option.bind_some, hrest, htake]

section Fields

variable {f : IsoFields} (hf : f.Fits)

include hf

theorem clock_clockText :
    clock f.clockText = some ⟨f.hour, f.minute, f.second, f.micros, false⟩ := by
  have hminute : padded 2 f.minute ++ ':' :: (padded 2 f.second ++ f.fractionText) ≠ [] := by simp
  have hsecond : padded 2 f.second ++ f.fractionText ≠ [] := by
    obtain ⟨c, rest, hc, _⟩ := exists_padded_cons (show 1 ≤ 1 from Nat.le_refl 1) hf.second
    simp [hc]
  unfold clock
  simp only [IsoFields.clockText, List.append_assoc, List.cons_append]
  rw [clockFields_colon hf.hour rfl hminute, clockFields_colon hf.minute rfl hsecond]
  unfold IsoFields.fractionText IsoFields.micros
  by_cases hnone : f.fraction = []
  · rw [if_pos hnone, List.append_nil, clockFields_end hf.second, hnone]
    rfl
  · rw [if_neg hnone, clockFields_point hf.second hnone]
    simp only [Option.map_some, Option.bind_eq_bind, Option.bind_some,
      fraction_of_isDigit hf.fraction]
    rfl

theorem clockText_no_offset {c : Char} (h : c ∈ f.clockText) : (!startsOffset c) = true := by
  have hdigit : ∀ {d : Char}, d.isDigit → (!startsOffset d) = true := by
    intro d hd
    simp [startsOffset, ne_of_isDigit hd (d := '+') (by decide),
      ne_of_isDigit hd (d := '-') (by decide), ne_of_isDigit hd (d := 'Z') (by decide)]
  have hpadded : ∀ {width n : Nat}, c ∈ padded width n → (!startsOffset c) = true := fun h =>
    hdigit (Calendar.isDigit_of_mem_padded h)
  simp only [IsoFields.clockText, List.mem_append, List.mem_cons] at h
  rcases h with ((h | rfl | h) | rfl | h) | h
  · exact hpadded h
  · decide
  · exact hpadded h
  · decide
  · exact hpadded h
  · unfold IsoFields.fractionText at h
    split at h
    · cases h
    · rcases List.mem_cons.mp h with rfl | h
      · decide
      · exact hdigit (hf.fraction c h)

theorem time_clockText :
    time (f.clockText ++ "+00:00".toList) =
      some (⟨f.hour, f.minute, f.second, f.micros, false⟩, some 0) := by
  have htake : (f.clockText ++ "+00:00".toList).takeWhile (fun c => !startsOffset c) = f.clockText := by
    rw [List.takeWhile_append_of_pos fun c hc => clockText_no_offset hf hc]
    simp [startsOffset]
  have hdrop : (f.clockText ++ "+00:00".toList).dropWhile (fun c => !startsOffset c) =
      "+00:00".toList := by
    rw [List.dropWhile_append_of_pos fun c hc => clockText_no_offset hf hc]
    simp [startsOffset]
  have hoffset : offset "+00:00".toList = some 0 := by decide
  unfold time
  rw [htake, hdrop, clock_clockText hf]
  simp only [Option.bind_eq_bind, Option.bind_some]
  change (offset "+00:00".toList).bind _ = _
  rw [hoffset]
  rfl

/-- The parser reads the fields back, if they name a time. -/
theorem fromisoformat_body :
    fromisoformat (String.ofList (f.body ++ "+00:00".toList)) =
      if f.date.Valid ∧ 1 ≤ f.date.year ∧ f.hour ≤ 23 ∧ f.minute ≤ 59 ∧ f.second ≤ 59 then
        (Utc.of? (f.date.toDays * dayMicros +
          (f.hour * 3600 + f.minute * 60 + f.second : Nat) * 1000000 + f.micros)).map
            fun wall => (wall, some 0)
      else none := by
  have hbody : f.body ++ "+00:00".toList = f.dateText ++ 'T' :: (f.clockText ++ "+00:00".toList) := by
    rw [IsoFields.body, List.append_assoc, List.cons_append]
  have htake : (f.dateText ++ 'T' :: (f.clockText ++ "+00:00".toList)).take 10 = f.dateText :=
    List.take_left' (length_dateText hf)
  have hdrop : (f.dateText ++ 'T' :: (f.clockText ++ "+00:00".toList)).drop 10 =
      'T' :: (f.clockText ++ "+00:00".toList) := List.drop_left' (length_dateText hf)
  have hbehind : behindSeparator ('T' :: (f.clockText ++ "+00:00".toList)) =
      f.clockText ++ "+00:00".toList := by
    obtain ⟨c, rest, hc, hdigit⟩ := exists_padded_cons (show 1 ≤ 1 from Nat.le_refl 1) hf.hour
    have htail : c ≠ '\x81' := ne_of_isDigit hdigit (by decide)
    simp [behindSeparator, IsoFields.clockText, hc, htail]
  have hlong : ¬ (f.dateText ++ 'T' :: (f.clockText ++ "+00:00".toList)).length ≤ 10 := by
    rw [List.length_append, length_dateText hf, List.length_cons]
    omega
  have hseven : 7 ≤
      (String.ofList (f.dateText ++ 'T' :: (f.clockText ++ "+00:00".toList))).toList.length := by
    rw [String.toList_ofList]
    omega
  unfold fromisoformat
  rw [bytes_body hf, hbody]
  dsimp only
  rw [separatorIndex_body hf, htake, hdrop, hbehind, date_dateText hf]
  simp only [Option.bind_eq_bind, Option.bind_some, if_neg hlong, hseven, true_and]
  rw [time_clockText hf]
  simp only [Option.bind_some]
  split
  · rw [Option.map_eq_bind]
    rfl
  · rfl

/-- The microsecond the fields name. -/
def IsoFields.instant (f : IsoFields) : Int :=
  f.date.toDays * dayMicros + (f.hour * 3600 + f.minute * 60 + f.second : Nat) * 1000000 + f.micros

/-- `parse_utc` of a printed timestamp. -/
theorem parseUtc_body (host : Host) (hvalid : f.date.Valid) (hyear : 1 ≤ f.date.year)
    (hclock : f.hour ≤ 23 ∧ f.minute ≤ 59 ∧ f.second ≤ 59) {t : Utc} (ht : t.micros = f.instant) :
    host.parseUtc (String.ofList (f.body ++ ['Z'])) = .ok t := by
  have hrange : Utc.of? f.instant = some t := by
    rw [← ht, Utc.of?, dif_pos t.inRange]
  have hread : fromisoformat (String.ofList (f.body ++ "+00:00".toList)) = some (t, some 0) := by
    rw [fromisoformat_body hf, if_pos ⟨hvalid, hyear, hclock⟩]
    change (Utc.of? f.instant).map _ = _
    rw [hrange]
    rfl
  unfold Host.parseUtc
  rw [replaceZulu_body hf, hread]
  simp only [Host.astimezoneUtc, Utc.ofMicros, Int.sub_zero, ht, hrange]

end Fields

/-! ### The texts of `utc_text` -/

/-- The fields of a datetime, to the second. -/
def IsoFields.ofUtc (t : Utc) : IsoFields :=
  let seconds := t.micros / 1000000
  let date := Date.ofDays (seconds / 86400)
  let second := (seconds % 86400).toNat
  ⟨date.year.natAbs, date.month, date.day, second / 3600, second / 60 % 60, second % 60, []⟩

theorem utcText_eq (t : Utc) : utcText t = String.ofList ((IsoFields.ofUtc t).body ++ ['Z']) := by
  simp [utcText, IsoFields.ofUtc, IsoFields.body, IsoFields.dateText, IsoFields.clockText,
    IsoFields.fractionText]

/-- A datetime without its fraction of a second. -/
def Utc.wholeSecond (t : Utc) : Utc :=
  ⟨t.micros / 1000000 * 1000000, by
    have := t.inRange
    unfold firstDay lastDay dayMicros at *
    omega⟩

theorem month_lt_of_valid {d : Date} (h : d.Valid) : d.month < 100 := by
  have := h.2.1
  omega

theorem day_lt_of_valid {d : Date} (h : d.Valid) : d.day < 100 := by
  have hlast : Calendar.daysInMonth d.year d.month ≤ 31 := by
    unfold Calendar.daysInMonth
    split
    · split <;> omega
    · split <;> omega
  have := h.2.2.2
  omega

/-- `parse_utc(utc_text(t))` is `t` to the second. -/
theorem parseUtc_utcText (host : Host) (t : Utc) :
    host.parseUtc (utcText t) = .ok t.wholeSecond := by
  obtain ⟨days, hdays⟩ : ∃ days, days = t.micros / 1000000 / 86400 := ⟨_, rfl⟩
  have hrange := t.inRange
  unfold firstDay lastDay dayMicros at hrange
  have hyear := (Calendar.year_ofDays_iff days).mpr (by omega)
  have hvalid := Calendar.valid_ofDays days
  have hdate : (IsoFields.ofUtc t).date = Date.ofDays days := by
    simp only [IsoFields.date, IsoFields.ofUtc, ← hdays]
    rw [Int.natAbs_of_nonneg (by omega)]
  have hfits : (IsoFields.ofUtc t).Fits := by
    constructor
    · simp only [IsoFields.ofUtc, ← hdays]
      omega
    · simp only [IsoFields.ofUtc, ← hdays]
      exact month_lt_of_valid hvalid
    · simp only [IsoFields.ofUtc, ← hdays]
      exact day_lt_of_valid hvalid
    · simp only [IsoFields.ofUtc]
      omega
    · simp only [IsoFields.ofUtc]
      omega
    · simp only [IsoFields.ofUtc]
      omega
    · intro c hc
      cases hc
  rw [utcText_eq]
  apply parseUtc_body hfits host (hdate ▸ hvalid) (hdate ▸ hyear.1)
  · simp only [IsoFields.ofUtc]
    omega
  · rw [IsoFields.instant, hdate, Calendar.toDays_ofDays]
    simp only [Utc.wholeSecond, IsoFields.ofUtc, IsoFields.micros, dayMicros]
    have hmicros : JsonReader.natOf (([] : List Char).take 6) = 0 := rfl
    rw [hmicros]
    omega

end Lakehouse.Dashboard
