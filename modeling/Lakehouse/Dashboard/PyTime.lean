/-
The `datetime` values the dashboard exporter uses.

An aware datetime is compared and printed through its UTC value, so `Utc` is a
number of microseconds since 1970-01-01T00:00:00 in the years 1 to 9999. A
naive one, as `fromisoformat` may give, is the number of microseconds of its
own clock. `Zone` is a time zone database entry: what its clock shows at an
instant, and the instant of a time on its clock.

* `fromisoformat` — what the C implementation accepts, which is more than
  ISO 8601: any separator, and a stray character before an offset.
* `parseUtc`, `utcText` — `parse_utc` and `utc_text`.
* `fromTimestamp` — `datetime.fromtimestamp(x, tz=UTC)`.
-/

import Lakehouse.Dashboard.Python
import Lakehouse.Lib.Calendar

namespace Lakehouse.Dashboard

open Calendar (Date)
open Scan (digits)

/-- The microseconds of a day. -/
def dayMicros : Int := 86400000000

/-- The days from 0001-01-01 to 9999-12-31. -/
def firstDay : Int := -719162

def lastDay : Int := 2932896

/-- A datetime of the years 1 to 9999. -/
structure Utc where
  micros : Int
  inRange : firstDay * dayMicros ≤ micros ∧ micros < (lastDay + 1) * dayMicros
deriving DecidableEq

/-- The datetime of a number of microseconds, if it is in range. -/
def Utc.of? (micros : Int) : Option Utc :=
  if h : firstDay * dayMicros ≤ micros ∧ micros < (lastDay + 1) * dayMicros then some ⟨micros, h⟩
  else none

/-- Arithmetic on datetimes. -/
def Utc.ofMicros (micros : Int) : Py Utc :=
  match of? micros with
  | some t => .ok t
  | none => .error .overflowError

theorem ofMicros_eq_ok {micros : Int} {t : Utc} (h : Utc.ofMicros micros = .ok t) :
    t.micros = micros := by
  unfold Utc.ofMicros Utc.of? at h
  split at h
  · rename_i found hfound
    split at hfound
    · cases hfound
      cases h
      rfl
    · cases hfound
  · cases h

/-- Only an instant outside the calendar fails. -/
theorem ofMicros_eq_error {micros : Int} {e : PyError} :
    Utc.ofMicros micros = .error e ↔ e = .overflowError ∧
      ¬ (firstDay * dayMicros ≤ micros ∧ micros < (lastDay + 1) * dayMicros) := by
  unfold Utc.ofMicros Utc.of?
  by_cases hrange : firstDay * dayMicros ≤ micros ∧ micros < (lastDay + 1) * dayMicros
  · rw [dif_pos hrange]
    simp [hrange]
  · rw [dif_neg hrange]
    simp only [hrange, not_false_eq_true, and_true]
    exact ⟨fun h => (Except.error.inj h).symm, fun h => congrArg _ h.symm⟩

structure Zone where
  /-- `t.astimezone(zone)`, as the microseconds of the zone's clock. -/
  clock : Utc → Py Int
  /-- The instant at which the clock shows a time. -/
  instant : Int → Py Utc

/-- What the exporter finds on the machine it runs on. -/
structure Host extends Python where
  localZone : Zone
  newYork : Zone

/-! ### `datetime.fromisoformat` -/

namespace IsoFormat

/-- The text as the parser sees it, byte by byte: no byte of a character outside
ASCII means anything, but the first one tells how many there are. -/
def bytes (s : String) : List Char :=
  s.toList.flatMap fun c =>
    if c.toNat < 0x80 then [c] else '\x80' :: List.replicate (c.utf8Size - 1) '\x81'

/-- Where the date ends. With a week date that depends on how many digits come. -/
def separatorIndex (cs : List Char) : Nat :=
  if cs.length = 7 then 7
  else if cs.getD 4 '\x00' = '-' then
    if cs.getD 5 '\x00' = 'W' then
      if 8 < cs.length ∧ cs.getD 8 '\x00' = '-' then
        if 10 < cs.length ∧ (cs.getD 10 '\x00').isDigit then 8 else 10
      else 8
    else 10
  else if cs.getD 4 '\x00' = 'W' then
    let index := 7 + ((cs.drop 7).takeWhile Char.isDigit).length
    if index < 9 then index else if index % 2 = 0 then 7 else 8
  else 8

/-- The weekday of 1 January; Monday is `0`. -/
def firstWeekday (year : Int) : Int := Calendar.weekday (Date.toDays ⟨year, 1, 1⟩)

/-- `iso_to_ymd`. -/
def ofWeek (year : Int) (week day : Nat) : Option Date :=
  if 1 ≤ year ∧ 1 ≤ day ∧ day ≤ 7 ∧ 1 ≤ week ∧
      (week ≤ 52 ∨ week = 53 ∧
        (firstWeekday year = 3 ∨ firstWeekday year = 2 ∧ Calendar.isLeap year)) then
    let monday := Date.toDays ⟨year, 1, 1⟩ - firstWeekday year + if 3 < firstWeekday year then 7 else 0
    some (Date.ofDays (monday + (week - 1) * 7 + (day - 1)))
  else none

/-- Skip a hyphen. -/
def hyphen : List Char → Option (List Char)
  | '-' :: rest => some rest
  | _ => none

/-- `parse_isoformat_date`. -/
def date (cs : List Char) : Option Date := do
  let (year, rest) ← digits 4 cs
  let separated := rest.head? = some '-'
  match (if separated then rest.tail else rest) with
  | 'W' :: rest => do
      let (week, rest) ← digits 2 rest
      if rest = [] then ofWeek year week 1
      else do
        let rest ← if separated then hyphen rest else some rest
        let (day, _) ← digits 1 rest
        ofWeek year week day
  | rest => do
      let (month, rest) ← digits 2 rest
      let rest ← if separated then hyphen rest else some rest
      let (day, rest) ← digits 2 rest
      if rest = [] then some ⟨year, month, day⟩ else none

/-- What is behind the last of the two-digit fields: the end, perhaps with a stray
character before it, or a fraction. -/
inductive Tail where
  | done (stray : Bool)
  | fraction (cs : List Char)

/-- Up to `fields` two-digit fields, with or without colons between them. -/
def clockFields : Nat → Option Bool → List Char → Option (List Nat × Tail)
  | 0, _, cs => some ([], .fraction cs)
  | fields + 1, colons, cs => do
      let (value, rest) ← digits 2 cs
      match rest with
      | [] => some ([value], .done false)
      | [c] => some ([value], .done (c ≠ '\x00'))
      | c :: behind =>
          let colons := colons.getD (c = ':')
          if colons ∧ c = ':' then do
            let (values, tail) ← clockFields fields (some colons) behind
            some (value :: values, tail)
          else if c = '.' ∨ c = ',' then some ([value], .fraction behind)
          else if colons then none
          else do
            let (values, tail) ← clockFields fields (some colons) rest
            some (value :: values, tail)

/-- The microseconds of a fraction, of which six digits count, and whether a stray
character is behind its digits. -/
def fraction (cs : List Char) : Option (Nat × Bool) := do
  let width := min 6 cs.length
  let (value, rest) ← digits width cs
  let stray := match rest.dropWhile Char.isDigit with
    | [] => false
    | c :: _ => decide (c ≠ '\x00')
  some (value * 10 ^ (6 - width), stray)

structure Clock where
  hour : Nat
  minute : Nat
  second : Nat
  micros : Nat
  stray : Bool

def Clock.seconds (c : Clock) : Nat := c.hour * 3600 + c.minute * 60 + c.second

/-- `parse_hh_mm_ss_ff`. -/
def clock (cs : List Char) : Option Clock := do
  let (values, tail) ← clockFields 3 none cs
  let (micros, stray) ← match tail with
    | .done stray => some (0, stray)
    | .fraction cs => fraction cs
  some ⟨values.getD 0 0, values.getD 1 0, values.getD 2 0, micros, stray⟩

def startsOffset (c : Char) : Bool := c == '+' || c == '-' || c == 'Z'

/-- The offset from UTC in microseconds, which has to end the text and to be less
than a day. Without whole seconds it is zero. -/
def offset : List Char → Option Int
  | 'Z' :: rest => if rest.head?.getD '\x00' = '\x00' then some 0 else none
  | sign :: rest => do
      let c ← clock rest
      let magnitude : Int := if c.seconds = 0 then 0 else c.seconds * 1000000 + c.micros
      if c.stray ∨ dayMicros ≤ magnitude then none
      else some (if sign = '-' then -magnitude else magnitude)
  | [] => none

/-- `parse_isoformat_time`: the time of day and the offset, if there is one. A stray
character before an offset is overlooked. -/
def time (cs : List Char) : Option (Clock × Option Int) := do
  let c ← clock (cs.takeWhile fun c => !startsOffset c)
  match cs.dropWhile fun c => !startsOffset c with
  | [] => if c.stray then none else some (c, none)
  | rest => do
      let utcOffset ← offset rest
      some (c, some utcOffset)

/-- What is behind the separator, a character of any number of bytes. -/
def behindSeparator (cs : List Char) : List Char := (cs.drop 1).dropWhile (· = '\x81')

end IsoFormat

open IsoFormat in
/-- `datetime.fromisoformat(text)`: the time its clock shows, and its offset from
UTC unless it is naive. -/
def fromisoformat (text : String) : Option (Utc × Option Int) := do
  let cs := bytes text
  let index := separatorIndex cs
  let d ← date (cs.take index)
  let (c, utcOffset) ←
    if cs.length ≤ index then some (⟨0, 0, 0, 0, false⟩, none) else time (behindSeparator (cs.drop index))
  if 7 ≤ text.toList.length ∧ d.Valid ∧ 1 ≤ d.year ∧ c.hour ≤ 23 ∧ c.minute ≤ 59 ∧ c.second ≤ 59 then do
    let wall ← Utc.of? (d.toDays * dayMicros + c.seconds * 1000000 + c.micros)
    some (wall, utcOffset)
  else none

/-! ### `parse_utc` and `utc_text` -/

/-- `value.replace("Z", "+00:00")`. -/
def replaceZulu (s : String) : String :=
  String.ofList (s.toList.flatMap fun c => if c = 'Z' then "+00:00".toList else [c])

/-- `t.astimezone(UTC)`. A naive datetime is local time. -/
def Host.astimezoneUtc (host : Host) : Utc × Option Int → Py Utc
  | (wall, some utcOffset) => Utc.ofMicros (wall.micros - utcOffset)
  | (wall, none) => host.localZone.instant wall.micros

/-- `parse_utc` of a string. -/
def Host.parseUtc (host : Host) (text : String) : Py Utc :=
  match fromisoformat (replaceZulu text) with
  | some parsed => host.astimezoneUtc parsed
  | none => .error .valueError

/-- `parse_utc` of any value: only strings have `replace`. -/
def Host.parseUtcValue (host : Host) : Json → Py Utc
  | .str text => host.parseUtc text
  | _ => .error .attributeError

/-- `utc_text`. -/
def utcText (t : Utc) : String :=
  let seconds := t.micros / 1000000
  let date := Date.ofDays (seconds / 86400)
  let second := (seconds % 86400).toNat
  String.ofList (Calendar.padded 4 date.year.natAbs ++ '-' :: Calendar.padded 2 date.month ++
    '-' :: Calendar.padded 2 date.day ++ 'T' :: Calendar.padded 2 (second / 3600) ++
    ':' :: Calendar.padded 2 (second / 60 % 60) ++ ':' :: Calendar.padded 2 (second % 60) ++ ['Z'])

/-- `t.date().isoformat()`. -/
def Utc.dateText (t : Utc) : String :=
  let date := Date.ofDays (t.micros / dayMicros)
  String.ofList (Calendar.padded 4 date.year.natAbs ++ '-' :: Calendar.padded 2 date.month ++
    '-' :: Calendar.padded 2 date.day)

/-- `datetime.fromtimestamp(x, tz=UTC)`: the fraction is rounded to microseconds
apart from the whole seconds. A year that is no C `int` is an `OSError`. -/
def fromTimestamp (x : Float) : Py Utc :=
  if x.isNaN then .error .valueError
  else if x.isInf then .error .overflowError
  else
    let whole := Double.truncate 0 0 0 x
    let micros := (Double.nearest ((x - floatOfInt whole) * 1000000) 1).getD 0
    if whole < -2 ^ 63 ∨ 2 ^ 63 ≤ whole then .error .overflowError
    else if whole < -67768040609740800 ∨ 67768036191676799 < whole then .error .osError
    else
      match Utc.of? (whole * 1000000 + micros) with
      | some t => .ok t
      | none => .error .valueError

end Lakehouse.Dashboard
