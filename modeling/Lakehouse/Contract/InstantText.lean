/-
Timestamps between the two programs: what `Instant.toString` prints in the
loader, `parse_utc` reads in the exporter.

* `parseUtc_text` — in the years 1 to 9999 the instant is read back, to the
  microsecond.
* `optionalUtc_text` — outside them the text is refused, and nothing else
  happens.
-/

import Lakehouse.Dashboard.Summaries
import Lakehouse.Dashboard.Timestamps
import Lakehouse.Loader.JavaTime

namespace Lakehouse.Contract

open Calendar (Date padded digits_padded length_padded)
open Dashboard (Host IsoFields Utc)
open Loader (Instant)

/-- The digits of the fraction of an instant. -/
def fractionDigits (nanos : Nat) : List Char :=
  if nanos = 0 then []
  else if nanos % 1000000 = 0 then padded 3 (nanos / 1000000)
  else if nanos % 1000 = 0 then padded 6 (nanos / 1000)
  else padded 9 nanos

theorem isDigit_fractionDigits {nanos : Nat} {c : Char} (h : c ∈ fractionDigits nanos) :
    c.isDigit = true := by
  unfold fractionDigits at h
  split at h
  · cases h
  · split at h
    · exact Calendar.isDigit_of_mem_padded h
    · split at h
      · exact Calendar.isDigit_of_mem_padded h
      · exact Calendar.isDigit_of_mem_padded h

theorem natOf_padded {width n : Nat} (hw : 1 ≤ width) (hn : n < 10 ^ width) :
    JsonReader.natOf (padded width n) = n := by
  have hread := digits_padded hw hn []
  have hlength := length_padded hw hn
  rw [List.append_nil, JsonReader.digits_eq_natOf (fun c => Calendar.isDigit_of_mem_padded)
    (Nat.le_of_eq hlength.symm), List.take_of_length_le (Nat.le_of_eq hlength)] at hread
  exact congrArg Prod.fst (Option.some.inj hread)

/-- The fields of an instant. -/
def instantFields (t : Instant) : IsoFields :=
  let seconds := t / 1000000000
  let nanos := (t % 1000000000).toNat
  let date := Date.ofDays (seconds / 86400)
  let second := (seconds % 86400).toNat
  ⟨date.year.natAbs, date.month, date.day, second / 3600, second / 60 % 60, second % 60,
    fractionDigits nanos⟩

/-- The fraction a parser keeps is the instant's, in microseconds. -/
theorem micros_instantFields (t : Instant) : (instantFields t).micros = (t % 1000000000).toNat / 1000 := by
  obtain ⟨nanos, hnanos⟩ : ∃ nanos, nanos = (t % 1000000000).toNat := ⟨_, rfl⟩
  have hbound : nanos < 1000000000 := by omega
  simp only [instantFields, IsoFields.micros, ← hnanos, fractionDigits]
  split
  · rename_i hzero
    rw [hzero]
    rfl
  · split
    · have hread : nanos / 1000000 < 10 ^ 3 := by omega
      rw [List.take_of_length_le (by rw [length_padded (by decide) hread]; decide),
        natOf_padded (by decide) hread, length_padded (by decide) hread]
      have hpow : 10 ^ (6 - min 6 3) = 1000 := rfl
      rw [hpow]
      omega
    · split
      · have hread : nanos / 1000 < 10 ^ 6 := by omega
        have hpow : 10 ^ (6 - min 6 6) = 1 := rfl
        rw [List.take_of_length_le (by rw [length_padded (by decide) hread]),
          natOf_padded (by decide) hread, length_padded (by decide) hread, hpow, Nat.mul_one]
      · have hread : nanos / 10 ^ 3 < 10 ^ 6 := by omega
        rw [Calendar.padded_add (show 1 ≤ 6 by decide) (show 1 ≤ 3 by decide) hbound,
          List.take_left' (length_padded (by decide) hread), natOf_padded (by decide) hread]
        have hlow : nanos % 10 ^ 3 < 10 ^ 3 := by omega
        have hpow : 10 ^ (6 - min 6 (6 + 3)) = 1 := rfl
        rw [List.length_append, length_padded (show 1 ≤ 6 by decide) hread,
          length_padded (show 1 ≤ 3 by decide) hlow, hpow]
        exact Nat.mul_one _

/-- `Instant.toString` in the years 0 to 9999. -/
theorem text_eq {t : Instant} (hyear : 0 ≤ (Date.ofDays (t / 1000000000 / 86400)).year ∧
    (Date.ofDays (t / 1000000000 / 86400)).year ≤ 9999) :
    Instant.text t = String.ofList ((instantFields t).body ++ ['Z']) := by
  have hfraction : Instant.fractionText (t % 1000000000).toNat = (instantFields t).fractionText := by
    have hpadded : ∀ width n, padded width n ≠ [] := by
      intro width n hnil
      have := congrArg List.length hnil
      simp only [padded, List.length_append, List.length_nil] at this
      have hdigits := @Nat.length_toDigits_pos 10 n
      omega
    simp only [Instant.fractionText, IsoFields.fractionText, instantFields, fractionDigits]
    split
    · rfl
    · split
      · rw [if_neg (hpadded _ _)]
      · split
        · rw [if_neg (hpadded _ _)]
        · rw [if_neg (hpadded _ _)]
  have hyearText : Instant.yearText (Date.ofDays (t / 1000000000 / 86400)).year =
      padded 4 (instantFields t).year := by
    rw [Instant.yearText, if_neg (by omega), if_neg (by omega)]
    rfl
  simp only [Instant.text, hyearText, hfraction]
  simp [instantFields, IsoFields.body, IsoFields.dateText, IsoFields.clockText]

theorem fits_instantFields {t : Instant} (hyear : (instantFields t).year ≤ 9999) : (instantFields t).Fits := by
  have hvalid := Calendar.valid_ofDays (t / 1000000000 / 86400)
  constructor
  · omega
  · exact Dashboard.month_lt_of_valid hvalid
  · exact Dashboard.day_lt_of_valid hvalid
  · simp only [instantFields]
    omega
  · simp only [instantFields]
    omega
  · simp only [instantFields]
    omega
  · exact fun c hc => isDigit_fractionDigits hc

/-- What `parse_utc` reads of an instant. -/
def utcOf? (t : Instant) : Option Utc := Utc.of? (t / 1000)

theorem utcOf?_eq {t : Instant} {u : Utc} (h : utcOf? t = some u) : u.micros = t / 1000 := by
  unfold utcOf? Utc.of? at h
  split at h
  · cases h
    rfl
  · cases h

theorem year_of_utcOf? {t : Instant} {u : Utc} (h : utcOf? t = some u) :
    1 ≤ (Date.ofDays (t / 1000000000 / 86400)).year ∧
      (Date.ofDays (t / 1000000000 / 86400)).year ≤ 9999 := by
  have hmicros := utcOf?_eq h
  have hrange := u.inRange
  unfold Dashboard.firstDay Dashboard.lastDay Dashboard.dayMicros at hrange
  rw [Calendar.year_ofDays_iff]
  omega

theorem date_instantFields {t : Instant} (h : 0 ≤ (Date.ofDays (t / 1000000000 / 86400)).year) :
    (instantFields t).date = Date.ofDays (t / 1000000000 / 86400) := by
  simp only [IsoFields.date, instantFields]
  rw [Int.natAbs_of_nonneg h]

/-- An instant of the years 1 to 9999 is read back, to the microsecond. -/
theorem parseUtc_text (host : Host) {t : Instant} {u : Utc} (h : utcOf? t = some u) :
    host.parseUtc (Instant.text t) = .ok u := by
  have hyear := year_of_utcOf? h
  have hdate := date_instantFields (t := t) (by omega)
  have hfits : (instantFields t).Fits := fits_instantFields (by
    simp only [instantFields]
    omega)
  rw [text_eq ⟨by omega, hyear.2⟩]
  apply Dashboard.parseUtc_body hfits host (hdate ▸ Calendar.valid_ofDays _) (hdate ▸ hyear.1)
  · simp only [instantFields]
    omega
  · rw [utcOf?_eq h, IsoFields.instant, hdate, Calendar.toDays_ofDays, micros_instantFields]
    simp only [instantFields, Dashboard.dayMicros]
    omega

/-- The year of a text that starts with a sign is not read. -/
theorem fromisoformat_signed {sign : Char} (hsign : sign = '-' ∨ sign = '+') (rest : List Char) :
    Dashboard.fromisoformat (String.ofList (sign :: rest)) = none := by
  have hascii : sign.toNat < 0x80 := by
    rcases hsign with rfl | rfl <;> decide
  have hdigit : sign.isDigit = false := by
    rcases hsign with rfl | rfl <;> rfl
  have hindex : ∀ cs, ∃ n, Dashboard.IsoFormat.separatorIndex cs = n + 1 := by
    intro cs
    refine ⟨Dashboard.IsoFormat.separatorIndex cs - 1, ?_⟩
    unfold Dashboard.IsoFormat.separatorIndex
    grind
  obtain ⟨n, hn⟩ := hindex (Dashboard.IsoFormat.bytes (String.ofList (sign :: rest)))
  unfold Dashboard.fromisoformat
  dsimp only
  rw [hn]
  simp [Dashboard.IsoFormat.bytes, hascii, Dashboard.IsoFormat.date, Scan.digits, hdigit]

theorem parseUtc_none (host : Host) {text : String}
    (h : Dashboard.fromisoformat (Dashboard.replaceZulu text) = none) :
    host.parseUtc text = .error .valueError := by
  unfold Host.parseUtc
  rw [h]

theorem replaceZulu_signed {sign : Char} (hsign : sign = '-' ∨ sign = '+') (rest : List Char) :
    ∃ others, Dashboard.replaceZulu (String.ofList (sign :: rest)) = String.ofList (sign :: others) := by
  have hzulu : sign ≠ 'Z' := by
    rcases hsign with rfl | rfl <;> decide
  unfold Dashboard.replaceZulu
  simp only [String.toList_ofList, List.flatMap_cons, if_neg hzulu, List.singleton_append]
  exact ⟨_, rfl⟩

/-- An instant outside those years is refused by the parser. -/
theorem parseUtc_text_none (host : Host) {t : Instant} (h : utcOf? t = none) :
    host.parseUtc (Instant.text t) = .error .valueError := by
  have hyear : ¬ (1 ≤ (Date.ofDays (t / 1000000000 / 86400)).year ∧
      (Date.ofDays (t / 1000000000 / 86400)).year ≤ 9999) := by
    rw [Calendar.year_ofDays_iff]
    intro hdays
    unfold utcOf? Utc.of? at h
    rw [dif_pos (by
      unfold Dashboard.firstDay Dashboard.lastDay Dashboard.dayMicros
      omega)] at h
    cases h
  apply parseUtc_none
  obtain ⟨year, hy⟩ : ∃ year, year = (Date.ofDays (t / 1000000000 / 86400)).year := ⟨_, rfl⟩
  rw [← hy] at hyear
  by_cases hnegative : year < 0
  · have htext : ∃ rest, Instant.text t = String.ofList ('-' :: rest) := by
      simp only [Instant.text, ← hy, Instant.yearText, if_pos hnegative, List.cons_append]
      exact ⟨_, rfl⟩
    obtain ⟨rest, hrest⟩ := htext
    obtain ⟨others, hothers⟩ := replaceZulu_signed (.inl rfl) rest
    rw [hrest, hothers]
    exact fromisoformat_signed (.inl rfl) others
  · by_cases hlarge : 9999 < year
    · have htext : ∃ rest, Instant.text t = String.ofList ('+' :: rest) := by
        simp only [Instant.text, ← hy, Instant.yearText, if_neg hnegative, if_pos hlarge,
          List.cons_append]
        exact ⟨_, rfl⟩
      obtain ⟨rest, hrest⟩ := htext
      obtain ⟨others, hothers⟩ := replaceZulu_signed (.inr rfl) rest
      rw [hrest, hothers]
      exact fromisoformat_signed (.inr rfl) others
    · -- the year 0 is well formed, but no `datetime` has it
      have hdate := date_instantFields (t := t) (by omega)
      have hfits : (instantFields t).Fits := fits_instantFields (by
        simp only [instantFields]
        omega)
      rw [text_eq (by omega), Dashboard.replaceZulu_body hfits, Dashboard.fromisoformat_body hfits,
        if_neg]
      rw [hdate]
      omega

theorem optionalUtc_text (host : Host) (t : Instant) :
    ∃ result, host.optionalUtc (.str (Instant.text t)) = .ok result := by
  cases h : utcOf? t with
  | none =>
      exact ⟨none, by simp [Host.optionalUtc, parseUtc_text_none host h,
        Dashboard.PyError.isValueError]⟩
  | some u => exact ⟨some (.of u), by simp [Host.optionalUtc, parseUtc_text host h]⟩

end Lakehouse.Contract
