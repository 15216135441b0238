/-
`IcebergWriter.hash`: the payload hash of a bar.

The hashed text joins the ten fields with `|`. The symbol may contain the separator;
no other field does, and there are as many of them behind the symbol in every text.

* `source_inj` — the text determines the fields.
* `hash_eq_iff` — so does the hash, unless SHA-256 collides on the two texts.
-/

import Mathlib
import Lakehouse.Lib.Joined
import Lakehouse.Lib.Sha256
import Lakehouse.Loader.AlpacaBar

namespace Lakehouse.Loader

/-! ### `java.lang.Double` -/

/-- `Double.doubleToLongBits`, the same for every NaN. -/
def doubleToLongBits (x : Float) : UInt64 := x.toBits

example : doubleToLongBits (0.0 / 0.0) = 0x7ff8000000000000 := by decide

/-- `Double.equals`: zeros of different sign differ, and NaN equals itself. -/
def doubleEquals (x y : Float) : Bool := doubleToLongBits x == doubleToLongBits y

example : doubleEquals 0.0 (-0.0) = false := by decide

@[simp] theorem doubleEquals_refl (x : Float) : doubleEquals x x = true := by
  simp [doubleEquals]

theorem eq_of_doubleEquals {x y : Float} (h : doubleEquals x y = true) : x = y := by
  obtain ⟨⟨bits, hbits⟩⟩ := x
  obtain ⟨⟨bits', hbits'⟩⟩ := y
  have heq : bits = bits' := by simpa [doubleEquals, doubleToLongBits, Float.toBits] using h
  subst heq
  rfl

/-- What is known of `Double.toString`. -/
structure DoubleText where
  toString : Float → String
  doubleEquals_of_eq : ∀ x y, toString x = toString y → doubleEquals x y = true
  separator_notMem : ∀ x, '|' ∉ (toString x).toList

/-! ### The hash -/

namespace IcebergWriter

variable (double : DoubleText)

/-- The fields behind the symbol. -/
def fieldsAfterSymbol (bar : AlpacaBar) : List String :=
  [double.toString bar.o, double.toString bar.h, double.toString bar.l, double.toString bar.c,
    toString bar.v, bar.t, toString bar.n, double.toString bar.vw]

/-- The text that is hashed. -/
def source (bar : AlpacaBar) : String :=
  String.intercalate "|" (bar.T :: bar.S :: fieldsAfterSymbol double bar)

def hash (bar : AlpacaBar) : String := formatHex (Sha256.digest (getBytes (source double bar)))

/-- Two bars are equal in all ten fields. -/
structure SameFields (a b : AlpacaBar) : Prop where
  T : a.T = b.T
  S : a.S = b.S
  o : doubleEquals a.o b.o = true
  h : doubleEquals a.h b.h = true
  l : doubleEquals a.l b.l = true
  c : doubleEquals a.c b.c = true
  v : a.v = b.v
  t : a.t = b.t
  n : a.n = b.n
  vw : doubleEquals a.vw b.vw = true

section Facts

variable {double} {a b : AlpacaBar}

theorem separator_notMem_toString (n : Int) : '|' ∉ (toString n).toList := by
  intro h
  rcases Scan.isDigit_or_minus_of_mem_toString h with hdigit | hminus
  · cases hdigit
  · cases hminus

/-- Only the symbol can contain the separator. -/
theorem separator_notMem_fields (bar : AlpacaBar) :
    ∀ field ∈ (fieldsAfterSymbol double bar).map String.toList, '|' ∉ field := by
  have htime := Instant.separator_notMem_of_parse bar.timed
  intro field hfield
  simp only [fieldsAfterSymbol, List.map_cons, List.map_nil, List.mem_cons, List.not_mem_nil,
    or_false] at hfield
  rcases hfield with rfl | rfl | rfl | rfl | rfl | rfl | rfl | rfl
  · exact double.separator_notMem _
  · exact double.separator_notMem _
  · exact double.separator_notMem _
  · exact double.separator_notMem _
  · exact separator_notMem_toString _
  · exact htime
  · exact separator_notMem_toString _
  · exact double.separator_notMem _

theorem toList_source (bar : AlpacaBar) :
    (source double bar).toList = (bar.T.toList ++ '|' :: bar.S.toList) ++
      ((fieldsAfterSymbol double bar).map String.toList).flatMap ('|' :: ·) := by
  rw [source, String.toList_intercalate]
  show ['|'].intercalate (_ :: _ :: _) = _
  rw [Joined.intercalate_cons_eq, List.flatMap_cons]
  simp

/-- The symbol is what is left when the other fields are taken off both ends. -/
theorem symbol_and_fields_of_source (h : source double a = source double b) :
    a.S = b.S ∧ fieldsAfterSymbol double a = fieldsAfterSymbol double b := by
  have hlist := congrArg String.toList h
  rw [toList_source, toList_source] at hlist
  obtain ⟨hfront, hfields⟩ := Joined.flatMap_inj (separator_notMem_fields a)
    (separator_notMem_fields b) rfl hlist
  rw [a.isBar, b.isBar] at hfront
  have hsymbol := (List.cons.inj (List.append_cancel_left hfront)).2
  have hinjective := List.map_injective_iff.mpr fun _ _ => String.toList_inj.mp
  exact ⟨String.toList_inj.mp hsymbol, hinjective hfields⟩

/-- The hashed text determines the fields. -/
theorem source_inj (h : source double a = source double b) : SameFields a b := by
  obtain ⟨hsymbol, hfields⟩ := symbol_and_fields_of_source h
  simp only [fieldsAfterSymbol, List.cons.injEq, and_true] at hfields
  obtain ⟨ho, hh, hl, hc, hv, ht, hn, hvw⟩ := hfields
  have hdouble := double.doubleEquals_of_eq
  exact
    { T := a.isBar.trans b.isBar.symm
      S := hsymbol
      o := hdouble _ _ ho
      h := hdouble _ _ hh
      l := hdouble _ _ hl
      c := hdouble _ _ hc
      v := Scan.intText_injective hv
      t := ht
      n := Scan.intText_injective hn
      vw := hdouble _ _ hvw }

theorem source_eq_of_sameFields (h : SameFields a b) : source double a = source double b := by
  unfold source fieldsAfterSymbol
  rw [h.T, h.S, h.v, h.t, h.n, eq_of_doubleEquals h.o, eq_of_doubleEquals h.h,
    eq_of_doubleEquals h.l, eq_of_doubleEquals h.c, eq_of_doubleEquals h.vw]

/-- The hashes of two bars are equal exactly if the bars are, unless SHA-256 collides. -/
theorem hash_eq_iff (double : DoubleText) (a b : AlpacaBar)
    (hcollision : Sha256.digest (getBytes (source double a)) =
      Sha256.digest (getBytes (source double b)) →
        getBytes (source double a) = getBytes (source double b)) :
    hash double a = hash double b ↔ SameFields a b := by
  constructor
  · intro h
    exact source_inj (getBytes_injective (hcollision (formatHex_injective h)))
  · intro h
    unfold hash
    rw [source_eq_of_sameFields h]

end Facts

/-! ### A symbol with the separator in it -/

/-- `Double.toString` of one; the bits of any other number. -/
def oneText (x : Float) : String := if x = 1.0 then "1.0" else toString x.toBits.toNat

theorem oneText_injective : Function.Injective oneText := by
  have hpoint (n : Nat) : "1.0" ≠ toString n := by
    intro h
    have hdot : '.' ∈ (toString (n : Int)).toList := by
      show '.' ∈ (toString n).toList
      rw [← h]
      decide
    rcases Scan.isDigit_or_minus_of_mem_toString hdot with hdigit | hminus
    · cases hdigit
    · cases hminus
  intro x y h
  unfold oneText at h
  split at h
  · rename_i hx
    split at h
    · rename_i hy
      rw [hx, hy]
    · exact absurd h (hpoint _)
  · split at h
    · exact absurd h.symm (hpoint _)
    · apply eq_of_doubleEquals
      simpa [doubleEquals, doubleToLongBits] using
        UInt64.toNat_inj.mp (Scan.natText_injective h)

def oneDoubleText : DoubleText where
  toString := oneText
  doubleEquals_of_eq x y h := by
    rw [oneText_injective h]
    exact doubleEquals_refl y
  separator_notMem x := by
    unfold oneText
    split
    · decide
    · exact separator_notMem_toString (x.toBits.toNat : Int)

/-- A bar of one trade at one dollar. -/
def tradeOf (S : String) (hS : isBlank S = false) : AlpacaBar where
  T := "b"
  S := S
  o := 1.0
  h := 1.0
  l := 1.0
  c := 1.0
  v := 100
  t := "2026-09-13T15:01:00Z"
  n := 1
  vw := 1.0
  isBar := rfl
  named := hS
  timed := by decide

/-- `X` and `X|1.0` are told apart. -/
theorem hash_symbol_ne : hash oneDoubleText (tradeOf "X|1.0" (by decide)) ≠
    hash oneDoubleText (tradeOf "X" (by decide)) := by
  have hcollision : Sha256.digest (getBytes (source oneDoubleText (tradeOf "X|1.0" (by decide)))) ≠
      Sha256.digest (getBytes (source oneDoubleText (tradeOf "X" (by decide)))) := by
    decide +kernel
  intro h
  have hsame := (hash_eq_iff oneDoubleText _ _ fun heq => absurd heq hcollision).mp h
  exact absurd hsame.S (by decide)

end IcebergWriter

end Lakehouse.Loader
