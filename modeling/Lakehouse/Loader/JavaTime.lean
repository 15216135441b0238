/-
The `java.time` values the loader uses.

An `Instant` is a number of nanoseconds since 1970-01-01T00:00:00Z and a
`Duration` a number of nanoseconds; `System.nanoTime()` readings are Java
`long`s, whose differences wrap to 64 bits (`toLong`). `Instant.text` is
`Instant.toString`: seconds always, then a fraction of 3, 6 or 9 digits when it
is not zero. `Instant.parse` reads back that and a little more, as
`DateTimeFormatter.ISO_INSTANT` does.
-/

import Mathlib.Algebra.Group.Int.Defs
import Lakehouse.Lib.Calendar
import Lakehouse.Lib.Scan

namespace Lakehouse.Loader

/-- Nanoseconds since the epoch. -/
abbrev Instant := Int

/-- Nanoseconds. -/
abbrev Duration := Int

/-- The value of a Java `long` expression: two's complement, 64 bits. -/
def toLong (x : Int) : Int := (x + 2 ^ 63) % 2 ^ 64 - 2 ^ 63

theorem toLong_of_range {x : Int} (h : -2 ^ 63 ≤ x ∧ x < 2 ^ 63) : toLong x = x := by
  unfold toLong
  omega

/-- `Duration.ofSeconds`. -/
def Duration.ofSeconds (seconds : Int) : Duration := seconds * 1000000000

/-- `Duration.toMillis`. -/
def Duration.toMillis (d : Duration) : Int := d.tdiv 1000000

namespace Instant

/-- The year of `Instant.toString`: four digits, signed outside 0000 to 9999. -/
def yearText (year : Int) : List Char :=
  if year < 0 then '-' :: Calendar.padded 4 year.natAbs
  else if 9999 < year then '+' :: Calendar.padded 4 year.natAbs
  else Calendar.padded 4 year.natAbs

/-- The fraction of `Instant.toString`: none, or 3, 6 or 9 digits. -/
def fractionText (nanos : Nat) : List Char :=
  if nanos = 0 then []
  else if nanos % 1000000 = 0 then '.' :: Calendar.padded 3 (nanos / 1000000)
  else if nanos % 1000 = 0 then '.' :: Calendar.padded 6 (nanos / 1000)
  else '.' :: Calendar.padded 9 nanos

/-- `Instant.toString`. -/
def text (t : Instant) : String :=
  let seconds := t / 1000000000
  let nanos := (t % 1000000000).toNat
  let date := Calendar.Date.ofDays (seconds / 86400)
  let secondOfDay := (seconds % 86400).toNat
  String.ofList (yearText date.year ++ '-' :: Calendar.padded 2 date.month ++
    '-' :: Calendar.padded 2 date.day ++ 'T' :: Calendar.padded 2 (secondOfDay / 3600) ++
    ':' :: Calendar.padded 2 (secondOfDay / 60 % 60) ++ ':' :: Calendar.padded 2 (secondOfDay % 60) ++
    fractionText nanos ++ ['Z'])

example : text 1789311709599102174 = "2026-09-13T15:01:49.599102174Z" := by decide

/-! ### `Instant.parse` -/

namespace Parser

open Scan (digits)

/-- Read a literal, in either case. -/
def literal (c : Char) : List Char → Option (List Char)
  | x :: rest => if x = c ∨ x = c.toLower then some rest else none
  | [] => none

/-- The year: four digits, or up to ten behind a sign; `+` only behind which more
than four are needed, and no `-0000`. -/
def year (cs : List Char) : Option (Int × List Char) :=
  match cs with
  | '-' :: rest =>
      let width := (rest.takeWhile Char.isDigit).length
      if 4 ≤ width ∧ width ≤ 10 then
        (digits width rest).bind fun (n, rest) => if n = 0 then none else some (-(n : Int), rest)
      else none
  | '+' :: rest =>
      let width := (rest.takeWhile Char.isDigit).length
      if 4 < width ∧ width ≤ 10 then (digits width rest).map fun (n, rest) => ((n : Int), rest)
      else none
  | rest =>
      if (rest.takeWhile Char.isDigit).length = 4 then
        (digits 4 rest).map fun (n, rest) => ((n : Int), rest)
      else none

/-- The fraction of a second, in nanoseconds: a point and up to nine digits. -/
def nanos : List Char → Option (Nat × List Char)
  | '.' :: rest =>
      let width := min 9 (rest.takeWhile Char.isDigit).length
      (digits width rest).map fun (n, rest) => (n * 10 ^ (9 - width), rest)
  | rest => some (0, rest)

/-- Two digits up to 59 behind a colon. -/
def sexagesimal (cs : List Char) : Option (Nat × List Char) := do
  let rest ← literal ':' cs
  let (n, rest) ← digits 2 rest
  if n ≤ 59 then some (n, rest) else none

/-- The offset in seconds: `Z`, or hours and minutes and optional seconds, up to
18 hours. -/
def offset (cs : List Char) : Option (Int × List Char) :=
  match literal 'Z' cs with
  | some rest => some (0, rest)
  | none =>
      match cs with
      | [] => none
      | sign :: rest => do
          let (hours, rest) ← digits 2 rest
          let (minutes, rest) ← sexagesimal rest
          let (seconds, rest) := (sexagesimal rest).getD (0, rest)
          let total : Int := hours * 3600 + minutes * 60 + seconds
          if 23 < hours ∨ 64800 < total then none
          else if sign = '+' then some (total, rest)
          else if sign = '-' then some (-total, rest)
          else none

/-- The date and the `T` behind it. -/
def date (cs : List Char) : Option (Calendar.Date × List Char) := do
  let (y, rest) ← year cs
  let rest ← literal '-' rest
  let (month, rest) ← digits 2 rest
  let rest ← literal '-' rest
  let (day, rest) ← digits 2 rest
  let rest ← literal 'T' rest
  some (⟨y, month, day⟩, rest)

/-- The seconds of the day, with the end of the day and a leap second allowed. -/
def secondOfDay (hour minute second nano : Nat) : Option Nat :=
  if hour = 24 ∧ minute = 0 ∧ second = 0 ∧ nano = 0 then some 86400
  else if hour = 23 ∧ minute = 59 ∧ second = 60 then some 86399
  else if hour ≤ 23 ∧ minute ≤ 59 ∧ second ≤ 59 then some (hour * 3600 + minute * 60 + second)
  else none

/-- The time of day with its offset, which end the text. -/
def time (cs : List Char) : Option (Nat × Nat × Int) := do
  let (hour, rest) ← digits 2 cs
  let rest ← literal ':' rest
  let (minute, rest) ← digits 2 rest
  let rest ← literal ':' rest
  let (second, rest) ← digits 2 rest
  let (nano, rest) ← nanos rest
  let (offsetSeconds, rest) ← offset rest
  let seconds ← secondOfDay hour minute second nano
  if rest = [] then some (seconds, nano, offsetSeconds) else none

/-! What a reader takes is in front of what it leaves, and has no `|` in it. -/

/-- A text read without a `|` in it. -/
abbrev ReadsPlain : List Char → List Char → Prop := Scan.Reads (· ≠ '|')

theorem digits_plain {width n : Nat} {cs rest : List Char} (h : digits width cs = some (n, rest)) :
    ReadsPlain cs rest :=
  Scan.digits_reads (by rintro c hc rfl; cases hc) h

theorem literal_plain {c : Char} (hc : c ≠ '|' ∧ c.toLower ≠ '|') {cs rest : List Char}
    (h : literal c cs = some rest) : ReadsPlain cs rest := by
  unfold literal at h
  split at h
  · split at h
    · rename_i hx
      cases h
      refine (Scan.Reads.refl _).cons ?_
      rcases hx with rfl | rfl
      · exact hc.1
      · exact hc.2
    · simp at h
  · simp at h

theorem year_plain {y : Int} {cs rest : List Char} (h : year cs = some (y, rest)) :
    ReadsPlain cs rest := by
  unfold year at h
  split at h
  · dsimp only at h
    split at h
    · obtain ⟨⟨n, unread⟩, hn, heq⟩ := Option.bind_eq_some_iff.mp h
      dsimp only at heq
      split at heq
      · simp at heq
      · cases heq
        exact (digits_plain hn).cons (by decide)
    · simp at h
  · dsimp only at h
    split at h
    · obtain ⟨⟨n, unread⟩, hn, heq⟩ := Option.map_eq_some_iff.mp h
      cases heq
      exact (digits_plain hn).cons (by decide)
    · simp at h
  · split at h
    · obtain ⟨⟨n, unread⟩, hn, heq⟩ := Option.map_eq_some_iff.mp h
      cases heq
      exact digits_plain hn
    · simp at h

theorem nanos_plain {n : Nat} {cs rest : List Char} (h : nanos cs = some (n, rest)) :
    ReadsPlain cs rest := by
  unfold nanos at h
  split at h
  · obtain ⟨⟨k, unread⟩, hk, heq⟩ := Option.map_eq_some_iff.mp h
    cases heq
    exact (digits_plain hk).cons (by decide)
  · cases h
    exact .refl _

theorem sexagesimal_plain {n : Nat} {cs rest : List Char} (h : sexagesimal cs = some (n, rest)) :
    ReadsPlain cs rest := by
  simp only [sexagesimal, Option.bind_eq_bind, Option.bind_eq_some_iff, Prod.exists] at h
  obtain ⟨cs₁, hcolon, k, cs₂, hk, heq⟩ := h
  split at heq
  · cases heq
    exact (literal_plain (by decide) hcolon).trans (digits_plain hk)
  · simp at heq

theorem offset_plain {n : Int} {cs rest : List Char} (h : offset cs = some (n, rest)) :
    ReadsPlain cs rest := by
  unfold offset at h
  split at h
  · rename_i hZ
    cases h
    exact literal_plain (by decide) hZ
  · split at h
    · simp at h
    · rename_i sign cs _
      simp only [Option.bind_eq_bind, Option.bind_eq_some_iff, Prod.exists] at h
      obtain ⟨hours, cs₁, hhours, minutes, cs₂, hminutes, h⟩ := h
      have hread : ReadsPlain cs cs₂ := (digits_plain hhours).trans (sexagesimal_plain hminutes)
      have hseconds : ReadsPlain cs₂ ((sexagesimal cs₂).getD (0, cs₂)).2 := by
        cases hsexagesimal : sexagesimal cs₂ with
        | none => exact .refl _
        | some read => exact sexagesimal_plain (n := read.1) hsexagesimal
      split at h
      · simp at h
      · split at h
        · rename_i hsign
          cases h
          exact (hread.trans hseconds).cons (by rw [hsign]; decide)
        · split at h
          · rename_i hsign
            cases h
            exact (hread.trans hseconds).cons (by rw [hsign]; decide)
          · simp at h

theorem date_plain {d : Calendar.Date} {cs rest : List Char} (h : date cs = some (d, rest)) :
    ReadsPlain cs rest := by
  simp only [date, Option.bind_eq_bind, Option.bind_eq_some_iff, Prod.exists] at h
  obtain ⟨y, cs₁, hyear, cs₂, hdash, month, cs₃, hmonth, cs₄, hdash', day, cs₅, hday, cs₆, hT, hd⟩ := h
  cases hd
  exact (year_plain hyear).trans <| (literal_plain (by decide) hdash).trans <|
    (digits_plain hmonth).trans <| (literal_plain (by decide) hdash').trans <|
    (digits_plain hday).trans (literal_plain (by decide) hT)

theorem time_plain {cs : List Char} {result : Nat × Nat × Int} (h : time cs = some result) :
    ReadsPlain cs [] := by
  simp only [time, Option.bind_eq_bind, Option.bind_eq_some_iff, Prod.exists] at h
  obtain ⟨hour, cs₁, hhour, cs₂, hcolon, minute, cs₃, hminute, cs₄, hcolon', second, cs₅, hsecond,
    nano, cs₆, hnano, offsetSeconds, cs₇, hoffset, seconds, _, hend⟩ := h
  split at hend
  · rename_i hnil
    subst hnil
    exact (digits_plain hhour).trans <| (literal_plain (by decide) hcolon).trans <|
      (digits_plain hminute).trans <| (literal_plain (by decide) hcolon').trans <|
      (digits_plain hsecond).trans <| (nanos_plain hnano).trans (offset_plain hoffset)
  · simp at hend

theorem mem_of_literal_colon {cs rest : List Char} (h : literal ':' cs = some rest) : ':' ∈ cs := by
  unfold literal at h
  split at h
  · split at h
    · rename_i hx
      rcases hx with rfl | rfl
      · exact List.mem_cons_self
      · exact List.mem_cons_self
    · simp at h
  · simp at h

theorem colon_of_time {cs : List Char} {result : Nat × Nat × Int} (h : time cs = some result) :
    ':' ∈ cs := by
  simp only [time, Option.bind_eq_bind, Option.bind_eq_some_iff, Prod.exists] at h
  obtain ⟨hour, cs₁, hhour, cs₂, hcolon, _⟩ := h
  exact (digits_plain hhour).suffix.subset (mem_of_literal_colon hcolon)

end Parser

/-- `Instant.parse`; none where it throws. -/
def parse (text : String) : Option Instant := do
  let (date, rest) ← Parser.date text.toList
  let (seconds, nano, offsetSeconds) ← Parser.time rest
  let epoch := date.toDays * 86400 + seconds - offsetSeconds
  if date.Valid ∧ -31557014167219200 ≤ epoch ∧ epoch ≤ 31556889864403199 then
    some (epoch * 1000000000 + nano)
  else none

example : parse "2026-09-13T15:01:49.599102174Z" = some 1789311709599102174 := by decide

example : parse "2026-09-13t24:00:00.+02:30" = parse "2026-09-13T21:30:00Z" := by decide

/-- The text of an instant has a colon. -/
theorem colon_of_parse {text : String} (h : (parse text).isSome) : ':' ∈ text.toList := by
  obtain ⟨t, ht⟩ := Option.isSome_iff_exists.mp h
  simp only [parse, Option.bind_eq_bind, Option.bind_eq_some_iff, Prod.exists] at ht
  obtain ⟨d, rest, hdate, seconds, nano, offsetSeconds, htime, _⟩ := ht
  exact (Parser.date_plain hdate).suffix.subset (Parser.colon_of_time htime)

/-- The text of an instant has no `|`. -/
theorem separator_notMem_of_parse {text : String} (h : (parse text).isSome) :
    '|' ∉ text.toList := by
  obtain ⟨t, ht⟩ := Option.isSome_iff_exists.mp h
  simp only [parse, Option.bind_eq_bind, Option.bind_eq_some_iff, Prod.exists] at ht
  obtain ⟨d, rest, hdate, seconds, nano, offsetSeconds, htime, _⟩ := ht
  exact fun hmem => (Parser.date_plain hdate |>.trans (Parser.time_plain htime)).forall _ hmem rfl

end Instant

end Lakehouse.Loader
