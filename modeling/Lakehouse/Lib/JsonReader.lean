/-
Reading JSON text.

Three machines, each one structural pass over a list: `Utf8.decode` turns
bytes into characters, `lex` characters into tokens, `read` tokens into the
first value and the tokens behind it. None of them needs fuel. What cannot be
decoded becomes the character NUL, and what cannot be a token `Token.invalid`;
the grammar has no place for either, so an ill-formed text is an error only if
the value reaches that far. `atomHead_of_ok` says that a value is its own head.

What readers of JSON differ in is their `Dialect`: the words for non-finite
numbers, and limits on numbers, names and nesting. A `Fault` tells an ill-formed
text from one that is over a limit.
-/

import Mathlib.Data.List.TakeWhile
import Lakehouse.Lib.Json
import Lakehouse.Lib.Scan

namespace JsonReader

/-! ### UTF-8 -/

namespace Utf8

/-- Between characters, or inside one: the bytes still to come, the bounds of the
next one, and the bits so far. -/
inductive State where
  | start
  | tail (more : Nat) (low high : UInt8) (bits : Nat)

/-- The state after a first byte from `0x80` on. -/
def lead (b : UInt8) : Option State :=
  if 0xC2 ≤ b ∧ b ≤ 0xDF then some (.tail 0 0x80 0xBF (b.toNat % 32))
  else if b = 0xE0 then some (.tail 1 0xA0 0xBF (b.toNat % 16))
  else if b = 0xED then some (.tail 1 0x80 0x9F (b.toNat % 16))
  else if 0xE1 ≤ b ∧ b ≤ 0xEF then some (.tail 1 0x80 0xBF (b.toNat % 16))
  else if b = 0xF0 then some (.tail 2 0x90 0xBF (b.toNat % 8))
  else if 0xF1 ≤ b ∧ b ≤ 0xF3 then some (.tail 2 0x80 0xBF (b.toNat % 8))
  else if b = 0xF4 then some (.tail 2 0x80 0x8F (b.toNat % 8))
  else none

/-- The characters of a byte sequence, up to the first byte that is ill-formed. -/
def decode : State → List UInt8 → List Char
  | .start, [] => []
  | .tail .., [] => ['\x00']
  | .start, b :: rest =>
      if b < 0x80 then Char.ofNat b.toNat :: decode .start rest
      else
        match lead b with
        | some s => decode s rest
        | none => ['\x00']
  | .tail more low high bits, b :: rest =>
      if low ≤ b ∧ b ≤ high then
        match more with
        | 0 => Char.ofNat (bits * 64 + b.toNat % 64) :: decode .start rest
        | n + 1 => decode (.tail n 0x80 0xBF (bits * 64 + b.toNat % 64)) rest
      else ['\x00']

end Utf8

/-! ### Numbers -/

structure Dialect where
  /-- `NaN`, `Infinity` and `-Infinity` are numbers. -/
  nonFinite : Bool
  maxIntegerDigits : Option Nat
  maxFloatDigits : Option Nat
  maxNameLength : Option Nat
  maxDepth : Option Nat

/-- Why a text is not read. -/
inductive Fault where
  | malformed
  | digits
  | name
  | depth
deriving DecidableEq, Repr

/-- A limit that may be absent. -/
def within (limit : Option Nat) (n : Nat) : Bool :=
  match limit with
  | some most => decide (n ≤ most)
  | none => true

/-- The number a run of decimal digits writes. -/
def natOf (digits : List Char) : Nat :=
  digits.foldl (fun n c => n * 10 + Scan.digitValue c) 0

theorem foldl_digits (ds : List Char) (n : Nat) :
    ds.foldl (fun n c => n * 10 + Scan.digitValue c) n = n * 10 ^ ds.length + natOf ds := by
  induction ds generalizing n with
  | nil => simp [natOf]
  | cons d ds ih =>
      simp only [natOf, List.foldl_cons, List.length_cons]
      rw [ih, ih (0 * 10 + Scan.digitValue d), Nat.pow_succ', Nat.zero_mul, Nat.zero_add,
        Nat.add_mul, Nat.mul_assoc, Nat.add_assoc]

theorem natOf_cons (d : Char) (ds : List Char) :
    natOf (d :: ds) = Scan.digitValue d * 10 ^ ds.length + natOf ds := by
  rw [natOf, List.foldl_cons, foldl_digits, Nat.zero_mul, Nat.zero_add]

theorem natOf_toDigits (n : Nat) : natOf (Nat.toDigits 10 n) = n := by
  have hfold : natOf (Nat.toDigits 10 n) = Nat.ofDigitChars 10 (Nat.toDigits 10 n) 0 := by
    simp only [natOf, Nat.ofDigitChars, Scan.digitValue, Nat.mul_comm 10]
  rw [hfold, Nat.ofDigitChars_ten_toDigits]

theorem natOf_lt {ds : List Char} (h : ∀ c ∈ ds, c.isDigit = true) :
    natOf ds < 10 ^ ds.length := by
  induction ds with
  | nil => decide
  | cons d ds ih =>
      have hvalue : Scan.digitValue d ≤ 9 := by
        have hd := h d List.mem_cons_self
        simp only [Char.isDigit, Bool.and_eq_true, decide_eq_true_eq] at hd
        have hnine : d.toNat ≤ 57 := hd.2
        have hzero : '0'.toNat = 48 := by decide
        rw [Scan.digitValue, hzero]
        omega
      have hrest := ih fun c hc => h c (List.mem_cons_of_mem _ hc)
      have hhead := Nat.mul_le_mul_right (10 ^ ds.length) hvalue
      rw [natOf_cons, List.length_cons, Nat.pow_succ]
      omega

/-- Reading a fixed number of digits gives the number they write. -/
theorem digits_eq_natOf {width : Nat} {cs : List Char} (h : ∀ c ∈ cs, c.isDigit)
    (hlength : width ≤ cs.length) :
    Scan.digits width cs = some (natOf (cs.take width), cs.drop width) := by
  induction width generalizing cs with
  | zero => rfl
  | succ width ih =>
      cases cs with
      | nil => simp at hlength
      | cons c cs =>
          have htake : (cs.take width).length = width := by
            rw [List.length_take]
            exact Nat.min_eq_left (by simpa using hlength)
          rw [Scan.digits, if_pos (h c List.mem_cons_self),
            ih (fun d hd => h d (List.mem_cons_of_mem _ hd)) (by simpa using hlength),
            List.take_succ_cons, natOf_cons, htake]
          rfl

/-- `m * 10 ^ e`, to the nearest double. -/
def scientific (m : Nat) (e : Int) : Float :=
  match e with
  | .ofNat n => Float.ofScientific m false n
  | .negSucc n => Float.ofScientific m true (n + 1)

/-- The fraction digits at the head, if any, and the rest; none if a point is not
followed by a digit. -/
def fraction : List Char → Option (Option (List Char) × List Char)
  | '.' :: rest =>
      match rest.takeWhile Char.isDigit with
      | [] => none
      | digits => some (some digits, rest.dropWhile Char.isDigit)
  | rest => some (none, rest)

/-- The exponent that makes up the whole list, as its sign and its digits. -/
def exponent : List Char → Option (Option (Bool × List Char))
  | [] => some none
  | c :: rest =>
      if c = 'e' ∨ c = 'E' then
        let (negative, digits) := match rest with
          | '-' :: digits => (true, digits)
          | '+' :: digits => (false, digits)
          | digits => (false, digits)
        if digits ≠ [] ∧ digits.all Char.isDigit then some (some (negative, digits)) else none
      else none

/-- The number an unsigned numeral writes: an integer if it has neither a
fraction nor an exponent. -/
def unsigned (d : Dialect) (negative : Bool) (cs : List Char) : Except Fault Json :=
  let whole := cs.takeWhile Char.isDigit
  if whole = [] ∨ (whole.head? = some '0' ∧ 1 < whole.length) then .error .malformed
  else
    match fraction (cs.dropWhile Char.isDigit) with
    | none => .error .malformed
    | some (frac, rest) =>
        match frac, exponent rest with
        | _, none => .error .malformed
        | none, some none =>
            if within d.maxIntegerDigits whole.length then
              .ok (.int (if negative then -(natOf whole : Int) else natOf whole))
            else .error .digits
        | frac, some exp =>
            let frac := frac.getD []
            let (expNegative, expDigits) := exp.getD (false, [])
            if within d.maxFloatDigits (whole.length + frac.length + expDigits.length) then
              let e : Int := if expNegative then -(natOf expDigits : Int) else natOf expDigits
              let x := scientific (natOf (whole ++ frac)) (e - frac.length)
              .ok (.float (if negative then x.neg else x))
            else .error .digits

/-- The words that stand for a value. -/
def words (d : Dialect) : List (List Char) :=
  ["true".toList, "false".toList, "null".toList] ++
    if d.nonFinite then ["NaN".toList, "Infinity".toList, "-Infinity".toList] else []

/-- The value of a word, or of a numeral that makes up the whole list. -/
def atom (d : Dialect) (cs : List Char) : Except Fault Json :=
  if cs = "true".toList then .ok (.bool true)
  else if cs = "false".toList then .ok (.bool false)
  else if cs = "null".toList then .ok .null
  else if d.nonFinite ∧ cs = "NaN".toList then .ok (.float (0.0 / 0.0))
  else if d.nonFinite ∧ cs = "Infinity".toList then .ok (.float (1.0 / 0.0))
  else if d.nonFinite ∧ cs = "-Infinity".toList then .ok (.float (-1.0 / 0.0))
  else
    match cs with
    | '-' :: rest => unsigned d true rest
    | cs => unsigned d false cs

/-! ### Where a value ends

A run of letters, digits and signs starts with a word or a numeral, which is taken as
far as it goes: its limit is checked before what stands behind it is looked at. -/

def wholeHead : List Char → List Char
  | '0' :: _ => ['0']
  | cs => cs.takeWhile Char.isDigit

/-- `start` and the digits behind it, if there are any. -/
def withDigits (start cs : List Char) : List Char :=
  match cs.takeWhile Char.isDigit with
  | [] => []
  | digits => start ++ digits

def fractionHead : List Char → List Char
  | '.' :: rest => withDigits ['.'] rest
  | _ => []

def exponentHead : List Char → List Char
  | [] => []
  | c :: rest =>
      if c = 'e' ∨ c = 'E' then
        match rest with
        | '-' :: digits => withDigits [c, '-'] digits
        | '+' :: digits => withDigits [c, '+'] digits
        | digits => withDigits [c] digits
      else []

def unsignedHead (cs : List Char) : List Char :=
  let whole := wholeHead cs
  if whole = [] then []
  else
    let rest := cs.drop whole.length
    let frac := fractionHead rest
    whole ++ (frac ++ exponentHead (rest.drop frac.length))

def numeralHead : List Char → List Char
  | '-' :: rest => '-' :: unsignedHead rest
  | cs => unsignedHead cs

/-- The word or numeral at the head. -/
def atomHead (d : Dialect) (cs : List Char) : List Char :=
  ((words d).find? fun word => word.isPrefixOf cs).getD (numeralHead cs)

theorem withDigits_eq (start : List Char) {cs digits : List Char}
    (h : cs.takeWhile Char.isDigit = digits) (hne : digits ≠ []) :
    withDigits start cs = start ++ digits := by
  unfold withDigits
  rw [h]
  cases digits with
  | nil => exact absurd rfl hne
  | cons d ds => rfl

theorem wholeHead_eq {cs whole : List Char} (h : cs.takeWhile Char.isDigit = whole)
    (hzero : ¬ (whole.head? = some '0' ∧ 1 < whole.length)) : wholeHead cs = whole := by
  subst h
  unfold wholeHead
  split
  · rename_i rest
    have hdigits : ('0' :: rest).takeWhile Char.isDigit = '0' :: rest.takeWhile Char.isDigit :=
      List.takeWhile_cons_of_pos rfl
    rw [hdigits] at hzero ⊢
    have hnil : rest.takeWhile Char.isDigit = [] := by
      by_contra hne
      have hpos := List.length_pos_of_ne_nil hne
      exact hzero ⟨rfl, by rw [List.length_cons]; omega⟩
    rw [hnil]
  · rfl

theorem fractionHead_eq {cs rest : List Char} {frac : Option (List Char)}
    (h : fraction cs = some (frac, rest)) : fractionHead cs ++ rest = cs := by
  unfold fraction at h
  unfold fractionHead
  split at h
  · rename_i tail
    split at h
    · cases h
    · rename_i digits hne hdigits
      cases h
      rw [withDigits_eq ['.'] rfl hdigits]
      exact congrArg ('.' :: ·) List.takeWhile_append_dropWhile
  · cases h
    rfl

theorem exponentHead_eq {cs : List Char} {exp : Option (Bool × List Char)}
    (h : exponent cs = some exp) : exponentHead cs = cs := by
  have hdigits : ∀ {start digits : List Char}, digits ≠ [] ∧ digits.all Char.isDigit = true →
      withDigits start digits = start ++ digits := fun hall =>
    withDigits_eq _ (List.takeWhile_eq_self_iff.mpr (List.all_eq_true.mp hall.2)) hall.1
  cases cs with
  | nil => rfl
  | cons c rest =>
      obtain ⟨hletter, h⟩ := Option.ite_none_right_eq_some.mp h
      obtain ⟨hall, -⟩ := Option.ite_none_right_eq_some.mp h
      unfold exponentHead
      dsimp only
      rw [if_pos hletter]
      split at hall
      · exact hdigits hall
      · exact hdigits hall
      · exact hdigits hall

theorem unsignedHead_of_ok {d : Dialect} {negative : Bool} {cs : List Char} {j : Json}
    (h : unsigned d negative cs = .ok j) : unsignedHead cs = cs := by
  unfold unsigned at h
  dsimp only at h
  split at h
  · cases h
  · rename_i hwhole
    obtain ⟨hne, hzero⟩ := not_or.mp hwhole
    split at h
    · cases h
    · rename_i frac rest hfrac
      have hexp : exponentHead rest = rest := by
        cases hexp : exponent rest with
        | none => simp [hexp] at h
        | some exp => exact exponentHead_eq hexp
      have hhead := wholeHead_eq rfl hzero
      have hsplit := fractionHead_eq hfrac
      have hcs := List.takeWhile_append_dropWhile (p := Char.isDigit) (l := cs)
      have hbehind : cs.drop (cs.takeWhile Char.isDigit).length = cs.dropWhile Char.isDigit :=
        (congrArg (List.drop _) hcs).symm.trans List.drop_left
      have hrest : (cs.dropWhile Char.isDigit).drop
          (fractionHead (cs.dropWhile Char.isDigit)).length = rest :=
        (congrArg (List.drop _) hsplit).symm.trans List.drop_left
      unfold unsignedHead
      dsimp only
      rw [hhead, if_neg hne, hbehind, hrest, hexp, hsplit, hcs]

theorem head_isDigit_of_ok {d : Dialect} {negative : Bool} {cs : List Char} {j : Json}
    (h : unsigned d negative cs = .ok j) : ∃ c rest, cs = c :: rest ∧ c.isDigit = true := by
  cases cs with
  | nil => cases h
  | cons c rest =>
      cases hdigit : c.isDigit with
      | true => exact ⟨c, rest, rfl, hdigit⟩
      | false =>
          rw [unsigned, List.takeWhile_cons_of_neg (by simp [hdigit])] at h
          cases h

/-- No word starts with a digit, or with a sign and a digit. -/
theorem not_isPrefixOf_numeral {d : Dialect} {word : List Char} (hword : word ∈ words d)
    {c : Char} (hdigit : c.isDigit = true) (rest : List Char) :
    word.isPrefixOf (c :: rest) = false ∧ word.isPrefixOf ('-' :: c :: rest) = false := by
  have hother : ∀ l : Char, l.isDigit = false → (l == c) = false := by
    intro l hl
    apply beq_false_of_ne
    rintro rfl
    rw [hl] at hdigit
    cases hdigit
  rw [words, List.mem_append] at hword
  rcases hword with hword | hword
  · simp only [List.mem_cons, List.not_mem_nil, or_false] at hword
    rcases hword with rfl | rfl | rfl
    · simp [List.isPrefixOf, hother 't' rfl]
    · simp [List.isPrefixOf, hother 'f' rfl]
    · simp [List.isPrefixOf, hother 'n' rfl]
  · split at hword
    · simp only [List.mem_cons, List.not_mem_nil, or_false] at hword
      rcases hword with rfl | rfl | rfl
      · simp [List.isPrefixOf, hother 'N' rfl]
      · simp [List.isPrefixOf, hother 'I' rfl]
      · simp [List.isPrefixOf, hother 'I' rfl, hother '-' rfl]
    · cases hword

/-- A value is its own head. -/
theorem atomHead_of_ok {d : Dialect} {cs : List Char} {j : Json} (h : atom d cs = .ok j) :
    atomHead d cs = cs := by
  unfold atom at h
  unfold atomHead
  split at h
  · rename_i hword
    subst hword
    cases hwords : d.nonFinite <;> simp only [words, hwords] <;> rfl
  split at h
  · rename_i hword
    subst hword
    cases hwords : d.nonFinite <;> simp only [words, hwords] <;> rfl
  split at h
  · rename_i hword
    subst hword
    cases hwords : d.nonFinite <;> simp only [words, hwords] <;> rfl
  split at h
  · rename_i hword
    rw [words, if_pos hword.1, hword.2]
    rfl
  split at h
  · rename_i hword
    rw [words, if_pos hword.1, hword.2]
    rfl
  split at h
  · rename_i hword
    rw [words, if_pos hword.1, hword.2]
    rfl
  split at h
  · rename_i rest
    obtain ⟨c, behind, rfl, hdigit⟩ := head_isDigit_of_ok h
    rw [List.find?_eq_none.mpr fun word hword => by
      simp [(not_isPrefixOf_numeral hword hdigit behind).2]]
    exact congrArg ('-' :: ·) (unsignedHead_of_ok h)
  · obtain ⟨c, behind, rfl, hdigit⟩ := head_isDigit_of_ok h
    rw [List.find?_eq_none.mpr fun word hword => by
      simp [(not_isPrefixOf_numeral hword hdigit behind).1]]
    unfold numeralHead
    dsimp only [Option.getD_none]
    split
    · rename_i heq
      cases heq
      exact absurd hdigit (by decide)
    · exact unsignedHead_of_ok h

/-! ### Tokens -/

inductive Token where
  | openArr
  | closeArr
  | openObj
  | closeObj
  | comma
  | colon
  | scalar (j : Json)
  | invalid (f : Fault)

/-- Inside a string: its characters so far, last first, and the first half of a
surrogate pair that waits for the second. -/
structure Text where
  chars : List Char
  half : Option Nat

/-- The text with a half that found no partner replaced by U+FFFD. -/
def Text.settle (t : Text) : List Char :=
  match t.half with
  | some _ => '\uFFFD' :: t.chars
  | none => t.chars

def Text.push (t : Text) (c : Char) : Text := ⟨c :: t.settle, none⟩

/-- Add the code unit of a `\u` escape. -/
def Text.pushUnit (t : Text) (unit : Nat) : Text :=
  if 0xD800 ≤ unit ∧ unit ≤ 0xDBFF then ⟨t.settle, some unit⟩
  else if 0xDC00 ≤ unit ∧ unit ≤ 0xDFFF then
    match t.half with
    | some high => ⟨Char.ofNat (0x10000 + (high - 0xD800) * 0x400 + (unit - 0xDC00)) :: t.chars, none⟩
    | none => t.push '\uFFFD'
  else t.push (Char.ofNat unit)

def Text.value (t : Text) : String := String.ofList t.settle.reverse

def hexDigit? (c : Char) : Option Nat :=
  if '0' ≤ c ∧ c ≤ '9' then some (c.toNat - '0'.toNat)
  else if 'a' ≤ c ∧ c ≤ 'f' then some (c.toNat - 'a'.toNat + 10)
  else if 'A' ≤ c ∧ c ≤ 'F' then some (c.toNat - 'A'.toNat + 10)
  else none

/-- The character a short escape stands for. -/
def shortEscape? : Char → Option Char
  | '"' => some '"'
  | '\\' => some '\\'
  | '/' => some '/'
  | 'b' => some '\x08'
  | 'f' => some '\x0C'
  | 'n' => some '\n'
  | 'r' => some '\r'
  | 't' => some '\t'
  | _ => none

inductive Lex where
  | blank
  | atom (chars : List Char)
  | string (t : Text)
  | escape (t : Text)
  | unit (t : Text) (missing bits : Nat)

def isAtomChar (c : Char) : Bool := c.isAlphanum || c == '+' || c == '-' || c == '.'

def isBlank (c : Char) : Bool := c == ' ' || c == '\t' || c == '\n' || c == '\r'

/-- A character between tokens: the token it is, if any, and the state behind it;
none if no token starts with it. -/
def start (c : Char) : Option (List Token × Lex) :=
  if isBlank c then some ([], .blank)
  else if isAtomChar c then some ([], .atom [c])
  else
    match c with
    | '[' => some ([.openArr], .blank)
    | ']' => some ([.closeArr], .blank)
    | '{' => some ([.openObj], .blank)
    | '}' => some ([.closeObj], .blank)
    | ',' => some ([.comma], .blank)
    | ':' => some ([.colon], .blank)
    | '"' => some ([], .string ⟨[], none⟩)
    | _ => none

/-- The token of a run, read last character first. A second value cannot follow the
first one, so a run with more than one is malformed. -/
def atomToken (d : Dialect) (chars : List Char) : Token :=
  let head := atomHead d chars.reverse
  match atom d head with
  | .ok j => if head = chars.reverse then .scalar j else .invalid .malformed
  | .error f => .invalid f

theorem atomToken_of_ok {d : Dialect} {chars : List Char} {j : Json}
    (h : atom d chars.reverse = .ok j) : atomToken d chars = .scalar j := by
  unfold atomToken
  dsimp only
  rw [atomHead_of_ok h, h]
  exact if_pos rfl

theorem atomToken_of_error {d : Dialect} {chars : List Char} {f : Fault}
    (h : atom d chars.reverse = .error f) : ∃ fault, atomToken d chars = .invalid fault := by
  unfold atomToken
  dsimp only
  cases hhead : atom d (atomHead d chars.reverse) with
  | error fault => exact ⟨fault, rfl⟩
  | ok j =>
      refine ⟨.malformed, if_neg fun heq => ?_⟩
      rw [heq, h] at hhead
      cases hhead

theorem atom_of_atomToken {d : Dialect} {chars : List Char} {j : Json}
    (h : atomToken d chars = .scalar j) : atom d chars.reverse = .ok j := by
  cases hatom : atom d chars.reverse with
  | ok i =>
      rw [atomToken_of_ok hatom] at h
      cases h
      rfl
  | error f =>
      obtain ⟨fault, hfault⟩ := atomToken_of_error hatom
      rw [hfault] at h
      cases h

/-- The tokens of a text. -/
def lex (d : Dialect) : Lex → List Char → List Token
  | .blank, [] => []
  | .atom chars, [] => [atomToken d chars]
  | _, [] => [.invalid .malformed]
  | .blank, c :: rest =>
      match start c with
      | some (tokens, next) => tokens ++ lex d next rest
      | none => [.invalid .malformed]
  | .atom chars, c :: rest =>
      if isAtomChar c then lex d (.atom (c :: chars)) rest
      else
        match start c with
        | some (tokens, next) => atomToken d chars :: tokens ++ lex d next rest
        | none => [atomToken d chars, .invalid .malformed]
  | .string t, c :: rest =>
      if c = '"' then .scalar (.str t.value) :: lex d .blank rest
      else if c = '\\' then lex d (.escape t) rest
      else if c < ' ' then [.invalid .malformed]
      else lex d (.string (t.push c)) rest
  | .escape t, c :: rest =>
      if c = 'u' then lex d (.unit t 4 0) rest
      else
        match shortEscape? c with
        | some escaped => lex d (.string (t.push escaped)) rest
        | none => [.invalid .malformed]
  | .unit t missing bits, c :: rest =>
      match hexDigit? c with
      | some digit =>
          if missing ≤ 1 then lex d (.string (t.pushUnit (bits * 16 + digit))) rest
          else lex d (.unit t (missing - 1) (bits * 16 + digit)) rest
      | none => [.invalid .malformed]

/-! ### Values -/

/-- A container that is still open: its items last first, or its members and the
name of the next one. -/
inductive Frame where
  | arr (done : List Json)
  | obj (done : List (String × Json)) (name : String)

/-- What may come next. -/
inductive Expect where
  | value
  | valueOrClose
  | nameOrClose
  | name
  | colon
  | commaOrClose
deriving DecidableEq

structure Partial where
  stack : List Frame
  expect : Expect

inductive Outcome where
  | more (p : Partial)
  | complete (j : Json)
  | error (f : Fault)

/-- A value is read: it goes into the innermost open container. -/
def close (stack : List Frame) (j : Json) : Outcome :=
  match stack with
  | [] => .complete j
  | .arr done :: rest => .more ⟨.arr (j :: done) :: rest, .commaOrClose⟩
  | .obj done name :: rest =>
      .more ⟨.obj (Json.setField name j done) name :: rest, .commaOrClose⟩

/-- A container opens, if a value may come and the nesting allows it. -/
def openFrame (d : Dialect) (p : Partial) (frame : Frame) (expect : Expect) : Outcome :=
  if p.expect = .value ∨ p.expect = .valueOrClose then
    if within d.maxDepth (p.stack.length + 1) then .more ⟨frame :: p.stack, expect⟩
    else .error .depth
  else .error .malformed

/-- One token of a value. -/
def step (d : Dialect) (p : Partial) : Token → Outcome
  | .openArr => openFrame d p (.arr []) .valueOrClose
  | .openObj => openFrame d p (.obj [] "") .nameOrClose
  | .closeArr =>
      match p.stack with
      | .arr done :: rest =>
          if p.expect = .valueOrClose ∨ p.expect = .commaOrClose then close rest (.arr done.reverse)
          else .error .malformed
      | _ => .error .malformed
  | .closeObj =>
      match p.stack with
      | .obj done _ :: rest =>
          if p.expect = .nameOrClose ∨ p.expect = .commaOrClose then close rest (.obj done)
          else .error .malformed
      | _ => .error .malformed
  | .comma =>
      if p.expect = .commaOrClose then
        match p.stack with
        | .arr _ :: _ => .more ⟨p.stack, .value⟩
        | .obj _ _ :: _ => .more ⟨p.stack, .name⟩
        | [] => .error .malformed
      else .error .malformed
  | .colon => if p.expect = .colon then .more ⟨p.stack, .value⟩ else .error .malformed
  | .scalar j =>
      match p.expect with
      | .value | .valueOrClose => close p.stack j
      | .nameOrClose | .name =>
          match p.stack, j with
          | .obj done _ :: rest, .str name =>
              if within d.maxNameLength name.length then .more ⟨.obj done name :: rest, .colon⟩
              else .error .name
          | _, _ => .error .malformed
      | _ => .error .malformed
  | .invalid f =>
      -- elsewhere it is not looked at as a value
      if p.expect = .value ∨ p.expect = .valueOrClose then .error f else .error .malformed

theorem step_invalid (d : Dialect) (p : Partial) (f : Fault) :
    ∃ fault, step d p (.invalid f) = .error fault := by
  rw [step]
  split
  · exact ⟨f, rfl⟩
  · exact ⟨.malformed, rfl⟩

/-- The first value, and the tokens behind it. -/
def read (d : Dialect) : Partial → List Token → Except Fault (Json × List Token)
  | _, [] => .error .malformed
  | p, t :: rest =>
      match step d p t with
      | .more next => read d next rest
      | .complete j => .ok (j, rest)
      | .error f => .error f

/-- The first value of a text. -/
def first (d : Dialect) (text : List Char) : Except Fault (Json × List Token) :=
  read d ⟨[], .value⟩ (lex d .blank text)

/-- The value of a text that is one value. -/
def whole (d : Dialect) (text : List Char) : Except Fault Json :=
  match first d text with
  | .ok (j, []) => .ok j
  | .ok (_, _ :: _) => .error .malformed
  | .error f => .error f

end JsonReader
