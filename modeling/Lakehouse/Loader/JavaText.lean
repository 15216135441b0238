/-
The `java.lang.String` and `Character` methods the loader uses, and `HexFormat`.

`getBytes` and `formatHex` lose nothing.
-/

import Mathlib.Data.Nat.Basic
import Lakehouse.Lib.Casing

namespace Lakehouse.Loader

/-- `Character.isWhitespace`: Unicode separators that may break a line, and the
control characters from tab to carriage return and from FS to US. -/
def isWhitespace (c : Char) : Bool :=
  c.val ∈ [0x9, 0xA, 0xB, 0xC, 0xD, 0x1C, 0x1D, 0x1E, 0x1F, 0x20, 0x1680, 0x2000, 0x2001, 0x2002,
    0x2003, 0x2004, 0x2005, 0x2006, 0x2008, 0x2009, 0x200A, 0x2028, 0x2029, 0x205F, 0x3000]

/-- `String.isBlank`. -/
def isBlank (s : String) : Bool := s.toList.all isWhitespace

/-- `String.toUpperCase(Locale.ROOT)` as far as the result can be one of the
names it is compared with. -/
def toUpperCase (s : String) : String := Casing.upper s

/-- `String.getBytes(StandardCharsets.UTF_8)`. -/
def getBytes (s : String) : List UInt8 := s.toUTF8.data.toList

theorem getBytes_injective : Function.Injective getBytes := by
  intro s t h
  have hdata : s.toByteArray.data = t.toByteArray.data := Array.toList_inj.mp h
  exact String.toByteArray_inj.mp (ByteArray.ext hdata)

/-! ### `HexFormat.of()` -/

/-- `HexFormat.toHexDigits`. -/
def toHexDigits (b : UInt8) : List Char :=
  [Nat.digitChar (b.toNat / 16), Nat.digitChar (b.toNat % 16)]

/-- `HexFormat.formatHex`. -/
def formatHex (bytes : List UInt8) : String := String.ofList (bytes.flatMap toHexDigits)

theorem digitChar_inj {m n : Nat} (hm : m < 16) (hn : n < 16)
    (h : Nat.digitChar m = Nat.digitChar n) : m = n := by
  have hall : ∀ m n : Fin 16, Nat.digitChar m = Nat.digitChar n → m = n := by decide
  exact Fin.mk.inj_iff.mp (hall ⟨m, hm⟩ ⟨n, hn⟩ h)

theorem toHexDigits_injective : Function.Injective toHexDigits := by
  intro b c h
  obtain ⟨hhigh, hrest⟩ := List.cons.inj h
  have hlow := List.head_eq_of_cons_eq hrest
  have hb := b.toNat_lt
  have hc := c.toNat_lt
  have hdiv := digitChar_inj (by omega) (by omega) hhigh
  have hmod := digitChar_inj (by omega) (by omega) hlow
  exact UInt8.toNat_inj.mp (by omega)

theorem formatHex_injective : Function.Injective formatHex := by
  intro bs cs h
  have hdigits := String.ofList_injective h
  clear h
  induction bs generalizing cs with
  | nil =>
      cases cs with
      | nil => rfl
      | cons c cs => simp [toHexDigits] at hdigits
  | cons b bs ih =>
      cases cs with
      | nil => simp [toHexDigits] at hdigits
      | cons c cs =>
          rw [List.flatMap_cons, List.flatMap_cons] at hdigits
          obtain ⟨hhead, htail⟩ := List.append_inj hdigits rfl
          rw [toHexDigits_injective hhead, ih htail]

example : formatHex [0x00, 0x7f, 0xff] = "007fff" := by decide

end Lakehouse.Loader
