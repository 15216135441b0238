/-
Reading fixed-width decimal fields off the front of a text.

A reader takes the text and returns what it read with the rest: `Reads` says that
what is left is a suffix of what there was, and of which characters the part before
it is. Decimal texts of different numbers differ.
-/

import Mathlib.Algebra.Group.Nat.Defs
import Mathlib.Data.List.Infix

namespace Scan

/-- The value of a decimal digit. -/
def digitValue (c : Char) : Nat := c.toNat - '0'.toNat

/-- Read exactly `width` digits. -/
def digits : Nat → List Char → Option (Nat × List Char)
  | 0, cs => some (0, cs)
  | width + 1, c :: rest =>
      if c.isDigit then
        (digits width rest).map fun (n, rest) => (digitValue c * 10 ^ width + n, rest)
      else none
  | _ + 1, [] => none

/-! ### What has been read -/

/-- The text before `rest` has only characters with `P`. -/
def Reads (P : Char → Prop) (cs rest : List Char) : Prop :=
  ∃ text, cs = text ++ rest ∧ ∀ c ∈ text, P c

section Reads

variable {P : Char → Prop} {cs rest rest' : List Char} {c : Char}

theorem Reads.refl (cs : List Char) : Reads P cs cs := ⟨[], rfl, by simp⟩

theorem Reads.trans (h : Reads P cs rest) (h' : Reads P rest rest') : Reads P cs rest' := by
  obtain ⟨text, rfl, htext⟩ := h
  obtain ⟨text', rfl, htext'⟩ := h'
  refine ⟨text ++ text', by simp, fun c hc => ?_⟩
  rcases List.mem_append.mp hc with hc | hc
  · exact htext c hc
  · exact htext' c hc

theorem Reads.suffix (h : Reads P cs rest) : rest <:+ cs := by
  obtain ⟨text, rfl, -⟩ := h
  exact List.suffix_append text rest

theorem Reads.cons (hc : P c) (h : Reads P cs rest) : Reads P (c :: cs) rest := by
  obtain ⟨text, rfl, htext⟩ := h
  refine ⟨c :: text, rfl, fun x hx => ?_⟩
  rcases List.mem_cons.mp hx with rfl | hx
  · exact hc
  · exact htext x hx

theorem Reads.forall (h : Reads P cs []) : ∀ c ∈ cs, P c := by
  obtain ⟨text, rfl, htext⟩ := h
  simpa using htext

theorem digits_reads (hdigit : ∀ c, c.isDigit = true → P c) {width n : Nat}
    (h : digits width cs = some (n, rest)) : Reads P cs rest := by
  induction width generalizing n cs with
  | zero =>
      cases h
      exact .refl _
  | succ width ih =>
      cases cs with
      | nil => simp [digits] at h
      | cons c tail =>
          unfold digits at h
          split at h
          · rename_i hc
            obtain ⟨⟨k, unread⟩, hk, heq⟩ := Option.map_eq_some_iff.mp h
            cases heq
            exact (ih hk).cons (hdigit c hc)
          · simp at h

end Reads

/-! ### Decimal texts -/

/-- The characters of a decimal text. -/
theorem isDigit_or_minus_of_mem_toString {n : Int} {c : Char} (h : c ∈ (toString n).toList) :
    c.isDigit = true ∨ c = '-' := by
  have hdigits : ∀ k : Nat, ∀ x ∈ (toString k).toList, x.isDigit = true := by
    intro k x hx
    rw [Nat.toString_eq_repr, Nat.toList_repr] at hx
    exact Nat.isDigit_of_mem_toDigits (by decide) (by decide) hx
  cases n with
  | ofNat k => exact .inl (hdigits k c h)
  | negSucc k =>
      have h' : c ∈ ("-" ++ toString (k + 1)).toList := h
      rw [String.toList_append, List.mem_append] at h'
      rcases h' with hsign | hdigit
      · exact .inr (by simpa using hsign)
      · exact .inl (hdigits _ c hdigit)

theorem natText_injective : Function.Injective (toString : Nat → String) := by
  intro m n h
  have hdigits : Nat.toDigits 10 m = Nat.toDigits 10 n := by
    have hlist := congrArg String.toList h
    simpa only [Nat.toString_eq_repr, Nat.toList_repr] using hlist
  rw [← Nat.ofDigitChars_ten_toDigits (n := m), hdigits, Nat.ofDigitChars_ten_toDigits]

theorem intText_injective : Function.Injective (toString : Int → String) := by
  have hminus (k : Nat) : '-' ∉ (toString k).toList := by
    intro hmem
    rw [Nat.toString_eq_repr, Nat.toList_repr] at hmem
    exact absurd (Nat.isDigit_of_mem_toDigits (by decide) (by decide) hmem) (by decide)
  have hneg (k : Nat) : (toString (Int.negSucc k)).toList = '-' :: (toString (k + 1)).toList := by
    simp [toString, Int.repr]
  intro m n h
  have hlist := congrArg String.toList h
  cases m with
  | ofNat a =>
      cases n with
      | ofNat b => exact congrArg Int.ofNat (natText_injective h)
      | negSucc b =>
          rw [hneg b] at hlist
          exact absurd (hlist ▸ List.mem_cons_self) (hminus a)
  | negSucc a =>
      cases n with
      | ofNat b =>
          rw [hneg a] at hlist
          exact absurd (hlist ▸ List.mem_cons_self) (hminus b)
      | negSucc b =>
          rw [hneg a, hneg b] at hlist
          have htail := String.toList_inj.mp (List.tail_eq_of_cons_eq hlist)
          exact congrArg Int.negSucc (Nat.succ_injective (natText_injective htail))

end Scan
