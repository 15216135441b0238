/-
Writing JSON text.

What writers of JSON differ in is their `Style`: which characters they escape, the
case of the digits in an escape, blanks between tokens, and the texts of doubles. A
value goes through two machines: `write` gives the characters, `tokens` what the
lexer makes of them.

* `lex_write` — the lexer does.
* `read_tokens` — the reader makes the value of its tokens.
* `whole_write` — a written text is read back as the value it was written from.
* `whole_write_fails` — unless one of its numbers is written as no number.
-/

import Mathlib.Data.List.TakeWhile
import Lakehouse.Lib.JsonNames

namespace JsonWriter

open JsonReader

structure Style where
  /-- Only the printable characters of ASCII are written as they are. -/
  ascii : Bool
  digit : Nat → Char
  digit_read : ∀ n < 16, hexDigit? (digit n) = some n
  /-- The blanks before an item at a depth, and before a bracket that closes. -/
  gap : Nat → List Char
  gap_blank : ∀ depth, ∀ c ∈ gap depth, isBlank c = true
  afterComma : List Char
  afterComma_blank : ∀ c ∈ afterComma, isBlank c = true
  afterColon : List Char
  afterColon_blank : ∀ c ∈ afterColon, isBlank c = true
  number : Float → List Char

theorem isBlank_of_mem_nil : ∀ c ∈ ([] : List Char), isBlank c = true :=
  fun _ hc => absurd hc List.not_mem_nil

theorem digitChar_read : ∀ n < 16, hexDigit? (Nat.digitChar n) = some n := by decide

/-! ### Characters -/

/-- The character that follows the backslash of a short escape. -/
def shortEscape : Char → Option Char
  | '"' => some '"'
  | '\\' => some '\\'
  | '\x08' => some 'b'
  | '\x0C' => some 'f'
  | '\n' => some 'n'
  | '\r' => some 'r'
  | '\t' => some 't'
  | _ => none

section Write

variable (style : Style)

/-- The escape of a code unit. -/
def hex4 (unit : Nat) : List Char :=
  ['\\', 'u', style.digit (unit / 4096), style.digit (unit / 256 % 16), style.digit (unit / 16 % 16),
    style.digit (unit % 16)]

/-- The escape of a character by its one or two code units. -/
def escapeUnits (n : Nat) : List Char :=
  if n < 0x10000 then hex4 style n
  else hex4 style (0xD800 + (n - 0x10000) / 0x400) ++ hex4 style (0xDC00 + (n - 0x10000) % 0x400)

def escape (c : Char) : List Char :=
  match shortEscape c with
  | some short => ['\\', short]
  | none =>
      if c < ' ' ∨ style.ascii = true ∧ '~' < c then escapeUnits style c.toNat else [c]

def quote (s : String) : List Char := '"' :: (s.toList.flatMap (escape style) ++ ['"'])

/-! ### Values -/

mutual
def write (depth : Nat) : Json → List Char
  | .null => "null".toList
  | .bool b => (if b then "true" else "false").toList
  | .int n => (toString n).toList
  | .float x => style.number x
  | .str s => quote style s
  | .arr [] => ['[', ']']
  | .arr (x :: xs) =>
      '[' :: (style.gap (depth + 1) ++ (write (depth + 1) x ++ (writeItems (depth + 1) xs ++
        (style.gap depth ++ [']']))))
  | .obj [] => ['{', '}']
  | .obj ((name, x) :: fs) =>
      '{' :: (style.gap (depth + 1) ++ (quote style name ++ (':' :: (style.afterColon ++
        (write (depth + 1) x ++ (writeMembers (depth + 1) fs ++ (style.gap depth ++ ['}'])))))))

/-- The items behind the first one. -/
def writeItems (depth : Nat) : List Json → List Char
  | [] => []
  | x :: xs =>
      ',' :: (style.afterComma ++ (style.gap depth ++ (write depth x ++ writeItems depth xs)))

def writeMembers (depth : Nat) : List (String × Json) → List Char
  | [] => []
  | (name, x) :: fs =>
      ',' :: (style.afterComma ++ (style.gap depth ++ (quote style name ++ (':' ::
        (style.afterColon ++ (write depth x ++ writeMembers depth fs))))))
end

end Write

/-! ### Tokens -/

section Tokens

variable (d : Dialect) (style : Style)

/-- The token of a written double. -/
def numberToken (x : Float) : Token := atomToken d (style.number x).reverse

/-- The token of a written integer. -/
def integerToken (n : Int) : Token := atomToken d (toString n).toList.reverse

mutual
def tokens : Json → List Token
  | .null => [.scalar .null]
  | .bool b => [.scalar (.bool b)]
  | .int n => [integerToken d n]
  | .float x => [numberToken d style x]
  | .str s => [.scalar (.str s)]
  | .arr [] => [.openArr, .closeArr]
  | .arr (x :: xs) => .openArr :: (tokens x ++ (itemTokens xs ++ [.closeArr]))
  | .obj [] => [.openObj, .closeObj]
  | .obj ((name, x) :: fs) =>
      .openObj :: .scalar (.str name) :: .colon :: (tokens x ++ (memberTokens fs ++ [.closeObj]))

def itemTokens : List Json → List Token
  | [] => []
  | x :: xs => .comma :: (tokens x ++ itemTokens xs)

def memberTokens : List (String × Json) → List Token
  | [] => []
  | (name, x) :: fs => .comma :: .scalar (.str name) :: .colon :: (tokens x ++ memberTokens fs)
end

end Tokens

/-! ### What can be read back -/

/-- The text of a double is a run of letters, digits and signs. -/
def Spelled (style : Style) : Json → Prop
  | .float x => style.number x ≠ [] ∧ ∀ c ∈ style.number x, isAtomChar c = true
  | _ => True

/-- The dialect reads the text of a number as that number. -/
def Legible (d : Dialect) (style : Style) : Json → Prop
  | .int n => within d.maxIntegerDigits (Nat.toDigits 10 n.natAbs).length = true
  | .float x => atom d (style.number x) = .ok (.float x)
  | _ => True

/-- A document that is read as it is, if its numbers are. -/
structure Writable (d : Dialect) (style : Style) (j : Json) : Prop where
  spelled : Json.AllLeaves (Spelled style) j
  names : Json.AllNames (fun name => within d.maxNameLength name.length = true) j
  distinct : Json.Distinct j
  depth : within d.maxDepth (Json.nesting j) = true

/-! ### The characters of a string -/

section Lex

variable {d : Dialect} {style : Style}

theorem lex_hex4 {unit : Nat} (h : unit < 0x10000) (t : Text) (rest : List Char) :
    lex d (.string t) (hex4 style unit ++ rest) = lex d (.string (t.pushUnit unit)) rest := by
  have hfirst := style.digit_read (unit / 4096) (by omega)
  have hsecond := style.digit_read (unit / 256 % 16) (by omega)
  have hthird := style.digit_read (unit / 16 % 16) (by omega)
  have hfourth := style.digit_read (unit % 16) (by omega)
  have hunit : (((0 * 16 + unit / 4096) * 16 + unit / 256 % 16) * 16 + unit / 16 % 16) * 16 +
      unit % 16 = unit := by omega
  simp only [hex4, List.cons_append, List.nil_append]
  rw [lex, if_neg (by decide), if_pos rfl, lex, if_pos rfl]
  simp only [lex, hfirst, hsecond, hthird, hfourth]
  simp only [show ¬ (4 ≤ 1) by decide, show ¬ (4 - 1 ≤ 1) by decide, show ¬ (4 - 1 - 1 ≤ 1) by decide,
    show 4 - 1 - 1 - 1 ≤ 1 by decide, if_false, if_true, hunit]

theorem toNat_lt (c : Char) : c.toNat < 0x110000 := by
  rcases c.valid with h | h
  · have hlt : c.toNat < 0xD800 := h
    omega
  · exact h.2

theorem not_surrogate (c : Char) : ¬ (0xD800 ≤ c.toNat ∧ c.toNat ≤ 0xDFFF) := by
  rcases c.valid with h | h
  · have hlt : c.toNat < 0xD800 := h
    omega
  · have hlt : 0xDFFF < c.toNat := h.1
    omega

theorem lex_escapeUnits (c : Char) (cs rest : List Char) :
    lex d (.string ⟨cs, none⟩) (escapeUnits style c.toNat ++ rest) =
      lex d (.string ⟨c :: cs, none⟩) rest := by
  have hvalid := toNat_lt c
  have hscalar := not_surrogate c
  unfold escapeUnits
  split
  · rename_i hsmall
    rw [lex_hex4 hsmall]
    unfold Text.pushUnit
    rw [if_neg (by omega), if_neg (by omega), Char.ofNat_toNat]
    rfl
  · rename_i hlarge
    rw [List.append_assoc, lex_hex4 (by omega), lex_hex4 (by omega)]
    have hhigh : (⟨cs, none⟩ : Text).pushUnit (0xD800 + (c.toNat - 0x10000) / 0x400) =
        ⟨cs, some (0xD800 + (c.toNat - 0x10000) / 0x400)⟩ := by
      unfold Text.pushUnit
      rw [if_pos (by omega)]
      rfl
    rw [hhigh]
    unfold Text.pushUnit
    rw [if_neg (by omega), if_pos (by omega)]
    have hpair : 0x10000 + (0xD800 + (c.toNat - 0x10000) / 0x400 - 0xD800) * 0x400 +
        (0xDC00 + (c.toNat - 0x10000) % 0x400 - 0xDC00) = c.toNat := by omega
    simp only [hpair, Char.ofNat_toNat]

theorem shortEscape?_shortEscape {c short : Char} (h : shortEscape c = some short) :
    shortEscape? short = some c ∧ short ≠ 'u' := by
  unfold shortEscape at h
  split at h <;> cases h <;> exact ⟨rfl, by decide⟩

theorem plain_of_shortEscape {c : Char} (h : shortEscape c = none) : c ≠ '"' ∧ c ≠ '\\' := by
  constructor
  · rintro rfl
    cases h
  · rintro rfl
    cases h

theorem lex_escape (c : Char) (cs rest : List Char) :
    lex d (.string ⟨cs, none⟩) (escape style c ++ rest) = lex d (.string ⟨c :: cs, none⟩) rest := by
  unfold escape
  cases hshort : shortEscape c with
  | some short =>
      obtain ⟨hread, hnot⟩ := shortEscape?_shortEscape hshort
      simp only [List.cons_append, List.nil_append]
      rw [lex, if_neg (by decide), if_pos rfl, lex, if_neg hnot, hread]
      rfl
  | none =>
      obtain ⟨hquote, hbackslash⟩ := plain_of_shortEscape hshort
      dsimp only
      split
      · exact lex_escapeUnits c cs rest
      · rename_i hplain
        have hprintable : ¬ c < ' ' := fun h => hplain (.inl h)
        rw [List.singleton_append, lex, if_neg hquote, if_neg hbackslash, if_neg hprintable]
        rfl

theorem lex_escapes (text cs rest : List Char) :
    lex d (.string ⟨cs, none⟩) (text.flatMap (escape style) ++ rest) =
      lex d (.string ⟨text.reverse ++ cs, none⟩) rest := by
  induction text generalizing cs with
  | nil => rfl
  | cons c text ih =>
      rw [List.flatMap_cons, List.append_assoc, lex_escape, ih, List.reverse_cons, List.append_assoc]
      rfl

/-- A string is one token. -/
theorem lex_quote (s : String) (rest : List Char) :
    lex d .blank (quote style s ++ rest) = .scalar (.str s) :: lex d .blank rest := by
  have hstart : JsonReader.start '"' = some ([], .string ⟨[], none⟩) := rfl
  have hvalue : (⟨s.toList.reverse ++ [], none⟩ : Text).value = s := by
    simp [Text.value, Text.settle]
  rw [quote, List.cons_append, lex, hstart, List.append_assoc]
  dsimp only
  rw [List.nil_append, lex_escapes, List.singleton_append, lex, if_pos rfl, hvalue]

/-! ### Numbers and words -/

/-- No atom goes on here. -/
def Ends (rest : List Char) : Prop := ∀ c, rest.head? = some c → isAtomChar c = false

theorem ends_cons {c : Char} {rest : List Char} (h : isAtomChar c = false) : Ends (c :: rest) := by
  rintro _ ⟨⟩
  exact h

theorem isAtomChar_of_isBlank {c : Char} (h : isBlank c = true) : isAtomChar c = false := by
  simp only [isBlank, Bool.or_eq_true, beq_iff_eq] at h
  rcases h with ((rfl | rfl) | rfl) | rfl
  · decide
  · decide
  · decide
  · decide

theorem ends_blanks {blanks rest : List Char} (h : ∀ c ∈ blanks, isBlank c = true)
    (hrest : Ends rest) : Ends (blanks ++ rest) := by
  cases blanks with
  | nil => exact hrest
  | cons c blanks => exact ends_cons (isAtomChar_of_isBlank (h c List.mem_cons_self))

theorem lex_blanks {blanks : List Char} (h : ∀ c ∈ blanks, isBlank c = true) (rest : List Char) :
    lex d .blank (blanks ++ rest) = lex d .blank rest := by
  induction blanks with
  | nil => rfl
  | cons c blanks ih =>
      have hstart : JsonReader.start c = some ([], .blank) := by
        unfold JsonReader.start
        rw [if_pos (h c List.mem_cons_self)]
      rw [List.cons_append, lex, hstart]
      exact ih fun x hx => h x (List.mem_cons_of_mem _ hx)

theorem lex_inAtom {cs rest : List Char} (h : ∀ c ∈ cs, isAtomChar c = true) (hrest : Ends rest)
    (chars : List Char) : lex d (.atom chars) (cs ++ rest) =
      atomToken d (cs.reverse ++ chars) :: lex d .blank rest := by
  induction cs generalizing chars with
  | nil =>
      cases rest with
      | nil => rfl
      | cons c rest =>
          have hends : isAtomChar c = false := hrest c rfl
          rw [List.nil_append, lex, lex, hends, if_neg Bool.false_ne_true]
          cases JsonReader.start c <;> rfl
  | cons c cs ih =>
      rw [List.cons_append, lex, if_pos (h c List.mem_cons_self),
        ih fun x hx => h x (List.mem_cons_of_mem _ hx), List.reverse_cons, List.append_assoc]
      rfl

/-- A number or a word is one token. -/
theorem lex_atom {cs rest : List Char} (hne : cs ≠ []) (h : ∀ c ∈ cs, isAtomChar c = true)
    (hrest : Ends rest) :
    lex d .blank (cs ++ rest) = atomToken d cs.reverse :: lex d .blank rest := by
  cases cs with
  | nil => exact absurd rfl hne
  | cons c cs =>
      have hc := h c List.mem_cons_self
      have hblank : isBlank c = false := by
        cases hblank : isBlank c with
        | false => rfl
        | true => exact absurd (isAtomChar_of_isBlank hblank) (by simp [hc])
      have hstart : JsonReader.start c = some ([], .atom [c]) := by
        unfold JsonReader.start
        rw [hblank, if_neg Bool.false_ne_true, if_pos hc]
      rw [List.cons_append, lex, hstart]
      dsimp only
      rw [List.nil_append, lex_inAtom (fun x hx => h x (List.mem_cons_of_mem _ hx)) hrest,
        ← List.reverse_cons]

theorem isAtomChar_of_isDigit {c : Char} (h : c.isDigit = true) : isAtomChar c = true := by
  simp [isAtomChar, Char.isAlphanum, h]

theorem isDigit_toDigits {n : Nat} : ∀ c ∈ Nat.toDigits 10 n, c.isDigit = true := fun _ hc =>
  Nat.isDigit_of_mem_toDigits (by decide) (by decide) hc

/-- Decimal digits without a leading zero. -/
theorem not_leadingZero (n : Nat) :
    ¬ (Nat.toDigits 10 n = [] ∨ (Nat.toDigits 10 n).head? = some '0' ∧
      1 < (Nat.toDigits 10 n).length) := by
  rintro (hnil | ⟨hzero, hlong⟩)
  · exact Nat.toDigits_ne_nil hnil
  · obtain ⟨rest, hdigits⟩ : ∃ rest, Nat.toDigits 10 n = '0' :: rest := by
      cases hdigits : Nat.toDigits 10 n with
      | nil => exact absurd hdigits Nat.toDigits_ne_nil
      | cons c rest =>
          rw [hdigits] at hzero
          cases hzero
          exact ⟨rest, rfl⟩
    have hvalue := natOf_toDigits n
    have hlength : (Nat.toDigits 10 n).length = rest.length + 1 := by rw [hdigits]; rfl
    have hrest : 0 < rest.length := by omega
    -- without its first digit the number is the same, but the digits are too many
    have hsmall : n < 10 ^ rest.length := by
      rw [← hvalue, hdigits, natOf_cons]
      have hdigit : ∀ c ∈ rest, c.isDigit = true := fun c hc =>
        isDigit_toDigits c (by rw [hdigits]; exact List.mem_cons_of_mem _ hc)
      have hzero : Scan.digitValue '0' = 0 := by decide
      rw [hzero, Nat.zero_mul, Nat.zero_add]
      exact natOf_lt hdigit
    have hle := (Nat.length_toDigits_le_iff (by decide : 1 < 10) hrest).mpr hsmall
    omega

theorem takeWhile_digits {cs : List Char} (h : ∀ c ∈ cs, c.isDigit = true) :
    cs.takeWhile Char.isDigit = cs ∧ cs.dropWhile Char.isDigit = [] :=
  ⟨List.takeWhile_eq_self_iff.mpr h, List.dropWhile_eq_nil_iff.mpr h⟩

theorem unsigned_toDigits (n : Nat) (negative : Bool)
    (h : within d.maxIntegerDigits (Nat.toDigits 10 n).length = true) :
    unsigned d negative (Nat.toDigits 10 n) = .ok (.int (if negative then -(n : Int) else n)) := by
  obtain ⟨htake, hdrop⟩ := takeWhile_digits (isDigit_toDigits (n := n))
  simp only [unsigned, htake, hdrop]
  rw [if_neg (not_leadingZero n)]
  simp only [fraction, exponent, h, if_true, natOf_toDigits]

theorem atom_toDigits (n : Nat) (h : within d.maxIntegerDigits (Nat.toDigits 10 n).length = true) :
    atom d (Nat.toDigits 10 n) = .ok (.int n) := by
  have hword : ∀ {word : List Char} {c : Char}, word.head? = some c → c.isDigit = false →
      Nat.toDigits 10 n ≠ word := by
    rintro word c hhead hletter rfl
    have hdigit := isDigit_toDigits c (List.mem_of_mem_head? hhead)
    rw [hletter] at hdigit
    exact Bool.false_ne_true hdigit
  unfold atom
  rw [if_neg (hword rfl (by decide)), if_neg (hword rfl (by decide)), if_neg (hword rfl (by decide)),
    if_neg (fun hnan => hword rfl (by decide) hnan.2), if_neg (fun hinf => hword rfl (by decide) hinf.2),
    if_neg (fun hinf => hword rfl (by decide) hinf.2)]
  split
  · rename_i rest heq
    exact absurd heq (hword rfl (by decide))
  · exact unsigned_toDigits n false h

theorem atom_negative (n : Nat) (h : within d.maxIntegerDigits (Nat.toDigits 10 n).length = true) :
    atom d ('-' :: Nat.toDigits 10 n) = .ok (.int (-(n : Int))) := by
  have hinfinity : '-' :: Nat.toDigits 10 n ≠ "-Infinity".toList := by
    intro heq
    have hdigits : Nat.toDigits 10 n = "Infinity".toList := (List.cons.inj heq).2
    have hdigit := isDigit_toDigits (n := n) 'I' (by rw [hdigits]; decide)
    exact absurd hdigit (by decide)
  have hword : ∀ {word : List Char}, word.head? ≠ some '-' → '-' :: Nat.toDigits 10 n ≠ word := by
    rintro word hhead rfl
    exact hhead rfl
  unfold atom
  rw [if_neg (hword (by decide)), if_neg (hword (by decide)), if_neg (hword (by decide)),
    if_neg (fun hnan => hword (by decide) hnan.2), if_neg (fun hinf => hword (by decide) hinf.2),
    if_neg (fun hinf => hinfinity hinf.2)]
  exact unsigned_toDigits n true h

theorem toList_toString (n : Int) : (toString n).toList =
    if n < 0 then '-' :: Nat.toDigits 10 n.natAbs else Nat.toDigits 10 n.natAbs := by
  cases n with
  | ofNat m =>
      have hnonneg : ¬ Int.ofNat m < 0 := Int.not_lt.mpr (Int.natCast_nonneg m)
      rw [if_neg hnonneg]
      exact Nat.toList_repr
  | negSucc m =>
      have hsign : toString (Int.negSucc m) = "-" ++ toString (m + 1) := rfl
      rw [if_pos (Int.negSucc_lt_zero m), hsign, String.toList_append, Nat.toString_eq_repr,
        Nat.toList_repr]
      rfl

theorem spelled_int (n : Int) :
    (toString n).toList ≠ [] ∧ ∀ c ∈ (toString n).toList, isAtomChar c = true := by
  have hdigits : ∀ c ∈ Nat.toDigits 10 n.natAbs, isAtomChar c = true := fun c hc =>
    isAtomChar_of_isDigit (isDigit_toDigits c hc)
  rw [toList_toString]
  split
  · exact ⟨List.cons_ne_nil _ _, List.forall_mem_cons.mpr ⟨by decide, hdigits⟩⟩
  · exact ⟨Nat.toDigits_ne_nil, hdigits⟩

/-- An integer is read back from its text. -/
theorem integerToken_eq {n : Int}
    (h : within d.maxIntegerDigits (Nat.toDigits 10 n.natAbs).length = true) :
    integerToken d n = .scalar (.int n) := by
  refine atomToken_of_ok ?_
  rw [List.reverse_reverse, toList_toString]
  rcases Int.lt_or_le n 0 with hneg | hnonneg
  · have hvalue : -(n.natAbs : Int) = n := by omega
    rw [if_pos hneg, atom_negative _ h, hvalue]
  · have hvalue : (n.natAbs : Int) = n := by omega
    rw [if_neg (Int.not_lt.mpr hnonneg), atom_toDigits _ h, hvalue]

/-! ### The characters of a value -/

theorem lex_symbol {c : Char} {token : Token} (h : JsonReader.start c = some ([token], .blank))
    (rest : List Char) : lex d .blank (c :: rest) = token :: lex d .blank rest := by
  rw [lex, h]
  rfl

theorem ends_comma (rest : List Char) : Ends (',' :: rest) := ends_cons (by decide)

/-- Behind a value come further items or the closing bracket. -/
theorem ends_items (depth : Nat) (xs : List Json) {rest : List Char} (hrest : Ends rest) :
    Ends (writeItems style depth xs ++ rest) := by
  cases xs with
  | nil => exact hrest
  | cons x xs =>
      rw [writeItems]
      exact ends_comma _

theorem ends_members (depth : Nat) (fs : List (String × Json)) {rest : List Char}
    (hrest : Ends rest) : Ends (writeMembers style depth fs ++ rest) := by
  cases fs with
  | nil => exact hrest
  | cons f fs =>
      rw [writeMembers]
      exact ends_comma _

theorem ends_close (depth : Nat) {c : Char} (hc : isAtomChar c = false) (rest : List Char) :
    Ends (style.gap depth ++ (c :: rest)) :=
  ends_blanks (style.gap_blank depth) (ends_cons hc)

mutual
/-- A written value is lexed as its tokens. -/
theorem lex_write (depth : Nat) : ∀ (j : Json), Json.AllLeaves (Spelled style) j →
    ∀ rest, Ends rest →
      lex d .blank (write style depth j ++ rest) = tokens d style j ++ lex d .blank rest
  | .null, _, rest, hrest => by
      rw [write, tokens]
      exact lex_atom (by decide) (List.all_eq_true.mp rfl) hrest
  | .bool b, _, rest, hrest => by
      rw [write, tokens]
      cases b with
      | true => exact lex_atom (by decide) (List.all_eq_true.mp rfl) hrest
      | false => exact lex_atom (by decide) (List.all_eq_true.mp rfl) hrest
  | .int n, h, rest, hrest => by
      obtain ⟨hne, hchars⟩ := spelled_int n
      rw [write, tokens]
      exact lex_atom hne hchars hrest
  | .float x, h, rest, hrest => by
      obtain ⟨hne, hchars⟩ := Json.allLeaves_float.mp h
      rw [write, tokens]
      exact lex_atom hne hchars hrest
  | .str s, _, rest, _ => by
      rw [write, tokens, lex_quote]
      rfl
  | .arr [], _, rest, _ => by
      rw [write, tokens, List.cons_append, lex_symbol rfl, List.cons_append, lex_symbol rfl]
      rfl
  | .arr (x :: xs), h, rest, hrest => by
      have hitems := Json.allLeaves_arr.mp h
      have hfirst := hitems x List.mem_cons_self
      have hothers := fun y hy => hitems y (List.mem_cons_of_mem _ hy)
      have hclose : Ends (style.gap depth ++ (']' :: rest)) := ends_close depth (by decide) rest
      rw [write, tokens, List.cons_append, lex_symbol rfl]
      simp only [List.append_assoc, List.cons_append, List.nil_append]
      rw [lex_blanks (style.gap_blank _), lex_write (depth + 1) x hfirst _ (ends_items _ _ hclose),
        lex_writeItems (depth + 1) xs hothers _ hclose, lex_blanks (style.gap_blank _), lex_symbol rfl]
  | .obj [], _, rest, _ => by
      rw [write, tokens, List.cons_append, lex_symbol rfl, List.cons_append, lex_symbol rfl]
      rfl
  | .obj ((name, x) :: fs), h, rest, hrest => by
      have hmembers := Json.allLeaves_obj.mp h
      have hfirst : Json.AllLeaves (Spelled style) x := hmembers (name, x) List.mem_cons_self
      have hothers := fun f hf => hmembers f (List.mem_cons_of_mem _ hf)
      have hclose : Ends (style.gap depth ++ ('}' :: rest)) := ends_close depth (by decide) rest
      rw [write, tokens, List.cons_append, lex_symbol rfl]
      simp only [List.append_assoc, List.cons_append, List.nil_append]
      rw [lex_blanks (style.gap_blank _), lex_quote, lex_symbol rfl,
        lex_blanks style.afterColon_blank, lex_write (depth + 1) x hfirst _ (ends_members _ _ hclose),
        lex_writeMembers (depth + 1) fs hothers _ hclose, lex_blanks (style.gap_blank _),
        lex_symbol rfl]

theorem lex_writeItems (depth : Nat) : ∀ (xs : List Json),
    (∀ x ∈ xs, Json.AllLeaves (Spelled style) x) → ∀ rest, Ends rest →
      lex d .blank (writeItems style depth xs ++ rest) = itemTokens d style xs ++ lex d .blank rest
  | [], _, rest, _ => rfl
  | x :: xs, h, rest, hrest => by
      have hfirst := h x List.mem_cons_self
      have hothers := fun y hy => h y (List.mem_cons_of_mem _ hy)
      rw [writeItems, itemTokens, List.cons_append, lex_symbol rfl]
      simp only [List.append_assoc, List.cons_append]
      rw [lex_blanks style.afterComma_blank, lex_blanks (style.gap_blank _),
        lex_write depth x hfirst _ (ends_items _ _ hrest), lex_writeItems depth xs hothers _ hrest]

theorem lex_writeMembers (depth : Nat) : ∀ (fs : List (String × Json)),
    (∀ f ∈ fs, Json.AllLeaves (Spelled style) f.2) → ∀ rest, Ends rest →
      lex d .blank (writeMembers style depth fs ++ rest) =
        memberTokens d style fs ++ lex d .blank rest
  | [], _, rest, _ => rfl
  | (name, x) :: fs, h, rest, hrest => by
      have hfirst : Json.AllLeaves (Spelled style) x := h (name, x) List.mem_cons_self
      have hothers := fun f hf => h f (List.mem_cons_of_mem _ hf)
      rw [writeMembers, memberTokens, List.cons_append, lex_symbol rfl]
      simp only [List.append_assoc, List.cons_append]
      rw [lex_blanks style.afterComma_blank, lex_blanks (style.gap_blank _), lex_quote,
        lex_symbol rfl, lex_blanks style.afterColon_blank,
        lex_write depth x hfirst _ (ends_members _ _ hrest), lex_writeMembers depth fs hothers _ hrest]
end

end Lex

/-! ### The value of the tokens -/

section Read

variable {d : Dialect} {style : Style}

theorem within_mono {limit : Option Nat} {m n : Nat} (h : m ≤ n) (hn : within limit n = true) :
    within limit m = true := by
  cases limit with
  | none => rfl
  | some most =>
      have hle : n ≤ most := of_decide_eq_true hn
      exact decide_eq_true (Nat.le_trans h hle)

theorem setField_new {name : String} {fs : List (String × Json)} (h : name ∉ fs.map Prod.fst)
    (j : Json) : Json.setField name j fs = fs ++ [(name, j)] := by
  induction fs with
  | nil => rfl
  | cons f fs ih =>
      have hne : ¬ f.1 = name := fun heq => h (heq ▸ List.mem_cons_self)
      rw [Json.setField, if_neg hne, ih fun hmem => h (List.mem_cons_of_mem _ hmem)]
      rfl

/-- A value may come. -/
def Expect.TakesValue (e : Expect) : Prop := e = .value ∨ e = .valueOrClose

theorem step_scalar {e : Expect} (he : Expect.TakesValue e) (stack : List Frame) (j : Json) :
    step d ⟨stack, e⟩ (.scalar j) = close stack j := by
  rcases he with rfl | rfl <;> rfl

theorem openFrame_more {e expect : Expect} (he : Expect.TakesValue e) {stack : List Frame}
    (hdepth : within d.maxDepth (stack.length + 1) = true) (frame : Frame) :
    openFrame d ⟨stack, e⟩ frame expect = .more ⟨frame :: stack, expect⟩ := by
  rcases he with rfl | rfl
  · exact if_pos hdepth
  · exact if_pos hdepth

theorem step_name {e : Expect} (he : e = .name ∨ e = .nameOrClose) {name : String}
    (hname : within d.maxNameLength name.length = true) (done : List (String × Json))
    (last : String) (stack : List Frame) :
    step d ⟨.obj done last :: stack, e⟩ (.scalar (.str name)) =
      .more ⟨.obj done name :: stack, .colon⟩ := by
  rcases he with rfl | rfl
  · exact if_pos hname
  · exact if_pos hname

/-- What the reader asks of a document. -/
structure Readable (d : Dialect) (style : Style) (j : Json) : Prop where
  legible : Json.AllLeaves (Legible d style) j
  names : Json.AllNames (fun name => within d.maxNameLength name.length = true) j
  distinct : Json.Distinct j

theorem readable_arr {xs : List Json} (h : Readable d style (.arr xs)) :
    ∀ x ∈ xs, Readable d style x := by
  obtain ⟨hlegible, hnames, hdistinct⟩ := h
  rw [Json.Distinct, Json.distinctItems_iff] at hdistinct
  intro x hx
  exact ⟨Json.allLeaves_arr.mp hlegible x hx, Json.allNames_arr.mp hnames x hx, hdistinct x hx⟩

theorem readable_obj {fs : List (String × Json)} (h : Readable d style (.obj fs)) :
    (fs.map Prod.fst).Nodup ∧
      ∀ f ∈ fs, within d.maxNameLength f.1.length = true ∧ Readable d style f.2 := by
  obtain ⟨hlegible, hnames, hnodup, hdistinct⟩ := h
  rw [Json.distinctMembers_iff] at hdistinct
  refine ⟨hnodup, fun f hf => ?_⟩
  have hboth := Json.allNames_obj.mp hnames f hf
  exact ⟨hboth.1, Json.allLeaves_obj.mp hlegible f hf, hboth.2, hdistinct f hf⟩

theorem numberToken_eq {x : Float} (h : atom d (style.number x) = .ok (.float x)) :
    numberToken d style x = .scalar (.float x) := by
  refine atomToken_of_ok ?_
  rw [List.reverse_reverse, h]

mutual
/-- The tokens of a value are read as that value. -/
theorem read_tokens : ∀ (j : Json), Readable d style j → ∀ (stack : List Frame) (e : Expect),
    Expect.TakesValue e → within d.maxDepth (stack.length + Json.nesting j) = true →
      ∀ rest, read d ⟨stack, e⟩ (tokens d style j ++ rest) = resume d (close stack j) rest
  | .null, _, stack, e, he, _, rest => by
      rw [tokens, List.singleton_append, read_cons, step_scalar he]
  | .bool b, _, stack, e, he, _, rest => by
      rw [tokens, List.singleton_append, read_cons, step_scalar he]
  | .int n, h, stack, e, he, _, rest => by
      rw [tokens, List.singleton_append, integerToken_eq (Json.allLeaves_int.mp h.legible),
        read_cons, step_scalar he]
  | .float x, h, stack, e, he, _, rest => by
      rw [tokens, List.singleton_append, numberToken_eq (Json.allLeaves_float.mp h.legible),
        read_cons, step_scalar he]
  | .str s, _, stack, e, he, _, rest => by
      rw [tokens, List.singleton_append, read_cons, step_scalar he]
  | .arr [], _, stack, e, he, hdepth, rest => by
      rw [tokens, List.cons_append, read_cons, step, openFrame_more he hdepth,
        List.singleton_append]
      exact read_cons _ _ _
  | .arr (x :: xs), h, stack, e, he, hdepth, rest => by
      have hitems := readable_arr h
      have hothers := fun y hy => hitems y (List.mem_cons_of_mem _ hy)
      rw [Json.nesting, Json.nestingList] at hdepth
      have hfirst : within d.maxDepth (stack.length + 1 + Json.nesting x) = true :=
        within_mono (by omega) hdepth
      have hrest : within d.maxDepth (stack.length + 1 + Json.nestingList xs) = true :=
        within_mono (by omega) hdepth
      have hopen : within d.maxDepth (stack.length + 1) = true := within_mono (by omega) hdepth
      rw [tokens, List.cons_append, read_cons, step, openFrame_more he hopen]
      simp only [resume, List.append_assoc, List.singleton_append]
      rw [read_tokens x (hitems x List.mem_cons_self) (.arr [] :: stack) .valueOrClose (.inr rfl) hfirst]
      exact read_itemTokens xs hothers stack [x] hrest rest
  | .obj [], _, stack, e, he, hdepth, rest => by
      rw [tokens, List.cons_append, read_cons, step, openFrame_more he hdepth,
        List.singleton_append]
      exact read_cons _ _ _
  | .obj ((name, x) :: fs), h, stack, e, he, hdepth, rest => by
      obtain ⟨hnodup, hmembers⟩ := readable_obj h
      obtain ⟨hname, hvalue⟩ := hmembers (name, x) List.mem_cons_self
      have hothers := fun f hf => hmembers f (List.mem_cons_of_mem _ hf)
      rw [Json.nesting, Json.nestingFields] at hdepth
      have hfirst : within d.maxDepth (stack.length + 1 + Json.nesting x) = true :=
        within_mono (by omega) hdepth
      have hrest : within d.maxDepth (stack.length + 1 + Json.nestingFields fs) = true :=
        within_mono (by omega) hdepth
      have hopen : within d.maxDepth (stack.length + 1) = true := within_mono (by omega) hdepth
      rw [tokens, List.cons_append, read_cons, step, openFrame_more he hopen]
      simp only [resume, List.cons_append, List.append_assoc]
      rw [read_cons, step_name (.inr rfl) hname, resume, read_cons, step, if_pos rfl, resume,
        read_tokens x hvalue (.obj [] name :: stack) .value (.inl rfl) hfirst]
      exact read_memberTokens fs hothers stack [(name, x)] name hnodup hrest rest

/-- Behind a first item, the others and the bracket. -/
theorem read_itemTokens : ∀ (xs : List Json), (∀ x ∈ xs, Readable d style x) →
    ∀ (stack : List Frame) (done : List Json),
      within d.maxDepth (stack.length + 1 + Json.nestingList xs) = true → ∀ rest,
        read d ⟨.arr done :: stack, .commaOrClose⟩ (itemTokens d style xs ++ .closeArr :: rest) =
          resume d (close stack (.arr (done.reverse ++ xs))) rest
  | [], _, stack, done, _, rest => by
      rw [itemTokens, List.nil_append, List.append_nil]
      exact read_cons _ _ _
  | x :: xs, h, stack, done, hdepth, rest => by
      have hothers := fun y hy => h y (List.mem_cons_of_mem _ hy)
      rw [Json.nestingList] at hdepth
      have hfirst : within d.maxDepth (stack.length + 1 + Json.nesting x) = true :=
        within_mono (by omega) hdepth
      have hrest : within d.maxDepth (stack.length + 1 + Json.nestingList xs) = true :=
        within_mono (by omega) hdepth
      have hcomma : step d ⟨.arr done :: stack, .commaOrClose⟩ .comma =
          .more ⟨.arr done :: stack, .value⟩ := rfl
      rw [itemTokens, List.cons_append, read_cons, hcomma, resume, List.append_assoc,
        read_tokens x (h x List.mem_cons_self) (.arr done :: stack) .value (.inl rfl) hfirst]
      have hall : (x :: done).reverse ++ xs = done.reverse ++ x :: xs := by
        rw [List.reverse_cons, List.append_assoc, List.singleton_append]
      rw [← hall]
      exact read_itemTokens xs hothers stack (x :: done) hrest rest

theorem read_memberTokens : ∀ (fs : List (String × Json)),
    (∀ f ∈ fs, within d.maxNameLength f.1.length = true ∧ Readable d style f.2) →
    ∀ (stack : List Frame) (done : List (String × Json)) (last : String),
      ((done ++ fs).map Prod.fst).Nodup →
      within d.maxDepth (stack.length + 1 + Json.nestingFields fs) = true → ∀ rest,
        read d ⟨.obj done last :: stack, .commaOrClose⟩
            (memberTokens d style fs ++ .closeObj :: rest) =
          resume d (close stack (.obj (done ++ fs))) rest
  | [], _, stack, done, last, _, _, rest => by
      rw [memberTokens, List.nil_append, List.append_nil]
      exact read_cons _ _ _
  | (name, x) :: fs, h, stack, done, last, hnodup, hdepth, rest => by
      obtain ⟨hname, hvalue⟩ := h (name, x) List.mem_cons_self
      have hothers := fun f hf => h f (List.mem_cons_of_mem _ hf)
      rw [Json.nestingFields] at hdepth
      have hfirst : within d.maxDepth (stack.length + 1 + Json.nesting x) = true :=
        within_mono (by omega) hdepth
      have hrest : within d.maxDepth (stack.length + 1 + Json.nestingFields fs) = true :=
        within_mono (by omega) hdepth
      have hcomma : step d ⟨.obj done last :: stack, .commaOrClose⟩ .comma =
          .more ⟨.obj done last :: stack, .name⟩ := rfl
      have hnew : name ∉ done.map Prod.fst := by
        intro hmem
        rw [List.map_append] at hnodup
        exact (List.nodup_append.mp hnodup).2.2 name hmem name List.mem_cons_self rfl
      have hclose : close (.obj done name :: stack) x =
          .more ⟨.obj (done ++ [(name, x)]) name :: stack, .commaOrClose⟩ := by
        rw [close, setField_new hnew]
      have hall : done ++ [(name, x)] ++ fs = done ++ (name, x) :: fs := by
        rw [List.append_assoc, List.singleton_append]
      rw [← hall] at hnodup
      have hrun := read_memberTokens fs hothers stack (done ++ [(name, x)]) name hnodup hrest rest
      rw [hall] at hrun
      rw [memberTokens, List.cons_append, read_cons, hcomma, resume]
      simp only [List.cons_append, List.append_assoc] at hrun ⊢
      rw [read_cons, step_name (.inl rfl) hname, resume, read_cons, step, if_pos rfl, resume,
        read_tokens x hvalue (.obj done name :: stack) .value (.inl rfl) hfirst, hclose, resume]
      exact hrun
end

/-- The tokens of a text that is written in front of blanks. -/
theorem lex_text {j : Json} (h : Json.AllLeaves (Spelled style) j) {blanks : List Char}
    (hblanks : ∀ c ∈ blanks, isBlank c = true) :
    lex d .blank (write style 0 j ++ blanks) = tokens d style j := by
  have hends : Ends (blanks ++ []) := ends_blanks hblanks fun _ hc => absurd hc (by simp)
  have hlex := lex_blanks (d := d) hblanks []
  rw [List.append_nil] at hends hlex
  rw [lex_write 0 j h blanks hends, hlex, lex, List.append_nil]

/-- A written text is read back as the value it was written from. -/
theorem whole_write {j : Json} (h : Writable d style j) (hlegible : Json.AllLeaves (Legible d style) j)
    {blanks : List Char} (hblanks : ∀ c ∈ blanks, isBlank c = true) :
    whole d (write style 0 j ++ blanks) = .ok j := by
  have hdepth : within d.maxDepth (([] : List Frame).length + Json.nesting j) = true := by
    rw [List.length_nil, Nat.zero_add]
    exact h.depth
  have hread := read_tokens j ⟨hlegible, h.names, h.distinct⟩ [] .value (.inl rfl) hdepth []
  rw [List.append_nil] at hread
  have hfirst : first d (write style 0 j ++ blanks) = .ok (j, []) := by
    rw [first, lex_text h.spelled hblanks, hread]
    rfl
  rw [whole, hfirst]

/-! ### A number that is no number to the reader -/

theorem read_valid {ts : List Token} {p : Partial} {j : Json} (h : read d p ts = .ok (j, []))
    (f : Fault) : .invalid f ∉ ts := by
  induction ts generalizing p with
  | nil => exact List.not_mem_nil
  | cons t ts ih =>
      rw [read_cons] at h
      intro hmem
      rcases List.mem_cons.mp hmem with rfl | hmem
      · obtain ⟨fault, hfault⟩ := step_invalid d p f
        rw [hfault] at h
        cases h
      · cases hstep : step d p t with
        | more next =>
            rw [hstep] at h
            exact ih h hmem
        | complete k =>
            rw [hstep] at h
            cases h
            exact List.not_mem_nil hmem
        | error f =>
            rw [hstep] at h
            cases h

mutual
theorem numberToken_mem {x : Float} : ∀ (j : Json), .float x ∈ Json.leaves j →
    numberToken d style x ∈ tokens d style j
  | .null, h => by simp [Json.leaves] at h
  | .bool b, h => by simp [Json.leaves] at h
  | .int n, h => by simp [Json.leaves] at h
  | .float y, h => by
      have heq : Json.float x = Json.float y := List.mem_singleton.mp h
      cases heq
      exact List.mem_singleton_self _
  | .str s, h => by simp [Json.leaves] at h
  | .arr [], h => by simp [Json.leaves, Json.leavesList] at h
  | .arr (y :: ys), h => by
      rw [Json.leaves, Json.leavesList] at h
      rw [tokens]
      rcases List.mem_append.mp h with h | h
      · exact .tail _ (List.mem_append_left _ (numberToken_mem y h))
      · exact .tail _ (List.mem_append_right _ (List.mem_append_left _ (numberToken_mem_items ys h)))
  | .obj [], h => by simp [Json.leaves, Json.leavesFields] at h
  | .obj ((name, y) :: fs), h => by
      rw [Json.leaves, Json.leavesFields] at h
      rw [tokens]
      refine .tail _ (.tail _ (.tail _ ?_))
      rcases List.mem_append.mp h with h | h
      · exact List.mem_append_left _ (numberToken_mem y h)
      · exact List.mem_append_right _ (List.mem_append_left _ (numberToken_mem_members fs h))

theorem numberToken_mem_items {x : Float} : ∀ (ys : List Json), .float x ∈ Json.leavesList ys →
    numberToken d style x ∈ itemTokens d style ys
  | [], h => absurd h List.not_mem_nil
  | y :: ys, h => by
      rw [Json.leavesList] at h
      rw [itemTokens]
      rcases List.mem_append.mp h with h | h
      · exact .tail _ (List.mem_append_left _ (numberToken_mem y h))
      · exact .tail _ (List.mem_append_right _ (numberToken_mem_items ys h))

theorem numberToken_mem_members {x : Float} : ∀ (fs : List (String × Json)),
    .float x ∈ Json.leavesFields fs → numberToken d style x ∈ memberTokens d style fs
  | [], h => absurd h List.not_mem_nil
  | (name, y) :: fs, h => by
      rw [Json.leavesFields] at h
      rw [memberTokens]
      refine .tail _ (.tail _ (.tail _ ?_))
      rcases List.mem_append.mp h with h | h
      · exact List.mem_append_left _ (numberToken_mem y h)
      · exact List.mem_append_right _ (numberToken_mem_members fs h)
end

/-- A text with a double that is written as no number is not read. -/
theorem whole_write_fails {j : Json} (h : Json.AllLeaves (Spelled style) j) {x : Float}
    (hx : .float x ∈ Json.leaves j) {f : Fault} (hatom : atom d (style.number x) = .error f)
    {blanks : List Char} (hblanks : ∀ c ∈ blanks, isBlank c = true) (k : Json) :
    whole d (write style 0 j ++ blanks) ≠ .ok k := by
  obtain ⟨fault, htoken⟩ : ∃ fault, numberToken d style x = .invalid fault := by
    refine atomToken_of_error (f := f) ?_
    rw [List.reverse_reverse, hatom]
  have hmem : numberToken d style x ∈ tokens d style j := numberToken_mem j hx
  rw [htoken] at hmem
  intro hwhole
  rw [whole, first, lex_text h hblanks] at hwhole
  split at hwhole
  · rename_i hread
    exact read_valid hread fault hmem
  · cases hwhole
  · cases hwhole

end Read

end JsonWriter
