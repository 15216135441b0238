/-
How Lean's binary64 arithmetic rounds.

An operation on floats works on mantissas and exponents: it cuts its result off
to the bits a double has, keeps of the rest whether it begins with a one and
whether anything is behind that, and rounds by these two. `Cut` says what they
stand for, `Rounding` what the mantissa comes to. What a user needs to know of
a rounded number is where it lies beside a number that is a double:
`Rounding.le`, `Rounding.ge`, and of the numbers that are too large `overflow`.

* `Holds` — the value of a finite double that is not negative.
* `Rounds` — where a result lies, beside every double.
* `ofRatio_holds`, `ofRatio_isInf` — quotients.
* `Holds.sub`, `Holds.mul` — differences and products.
* `Holds.truncate`, `Holds.nearest_le` — back to integers.
-/

import Mathlib
import Lakehouse.Lib.Double

namespace Double

open Float.Model
open Float.Model.UnpackedFloat

/-! ### The nearest integer -/

theorem le_nearestEven {c n d : ℕ} (hd : 0 < d) (h : c * d ≤ n) : c ≤ nearestEven n d := by
  have hfloor : c ≤ n / d := (Nat.le_div_iff_mul_le hd).mpr h
  unfold nearestEven
  simp only
  split
  · exact hfloor
  · split
    · exact hfloor
    · exact hfloor.trans (Nat.le_succ _)

theorem nearestEven_le_of_half {c n d : ℕ} (hd : 0 < d) (h : 2 * n < (2 * c + 1) * d) :
    nearestEven n d ≤ c := by
  have hsplit := Nat.div_add_mod n d
  have hfloor : n / d ≤ c := by
    refine Nat.lt_succ_iff.mp ((Nat.div_lt_iff_lt_mul hd).mpr ?_)
    rw [Nat.add_mul, Nat.mul_assoc] at h
    rw [Nat.succ_mul]
    omega
  unfold nearestEven
  simp only
  split
  · exact hfloor
  · rename_i hhalf
    split
    · exact hfloor
    · refine Nat.lt_of_le_of_ne hfloor fun heq => hhalf ?_
      rw [heq, Nat.mul_comm] at hsplit
      rw [Nat.add_mul, Nat.mul_assoc] at h
      omega

theorem nearestEven_le {c n d : ℕ} (hd : 0 < d) (h : n ≤ c * d) : nearestEven n d ≤ c :=
  nearestEven_le_of_half hd (by rw [Nat.add_mul, Nat.mul_assoc]; omega)

/-- A half is rounded up to an even number. -/
theorem le_nearestEven_of_half {c n d : ℕ} (hd : 0 < d) (heven : c % 2 = 0)
    (h : 2 * (c * d) ≤ 2 * n + d) : c ≤ nearestEven n d := by
  rcases Nat.lt_or_ge n (c * d) with hlt | hge
  · have hsplit := Nat.div_add_mod n d
    have hlow : c ≤ n / d + 1 := by
      by_contra hc
      have hstep : (n / d + 2) * d ≤ c * d := Nat.mul_le_mul_right d (by omega)
      have hmod := Nat.mod_lt n hd
      rw [Nat.add_mul, Nat.mul_comm] at hstep
      omega
    have hhigh : n / d < c := (Nat.div_lt_iff_lt_mul hd).mpr hlt
    have heq : c = n / d + 1 := by omega
    have hlast : c * d = d * (n / d) + d := by rw [heq, Nat.add_mul, Nat.one_mul, Nat.mul_comm]
    unfold nearestEven
    simp only
    rw [if_neg (by omega), if_neg (by omega)]
    omega
  · exact le_nearestEven hd hge

/-! ### The bits that are cut off -/

/-- An extended mantissa is `a / b`, cut off behind the point. -/
structure Cut (em : ExtendedMantissa) (a b : ℕ) : Prop where
  pos : 0 < b
  mantissa : em.mantissa = a / b
  roundBit : em.roundBit = true ↔ b ≤ 2 * (a % b)
  stickyBit : em.stickyBit = true ↔ 2 * a % b ≠ 0

theorem two_mul_mod {a b : ℕ} (hb : 0 < b) :
    2 * a % b = if 2 * (a % b) < b then 2 * (a % b) else 2 * (a % b) - b := by
  have hmod := Nat.mod_lt a hb
  have hreduce : 2 * a % b = 2 * (a % b) % b := by rw [Nat.mul_mod_mod]
  split
  · rename_i h
    rw [hreduce, Nat.mod_eq_of_lt h]
  · rename_i h
    rw [hreduce, Nat.mod_eq_sub_mod (Nat.le_of_not_lt h), Nat.mod_eq_of_lt (by omega)]

theorem Cut.shiftRightOne {em : ExtendedMantissa} {a b : ℕ} (h : Cut em a b) :
    Cut em.shiftRightOne a (b * 2) := by
  have hb := h.pos
  have hmod := Nat.mod_lt a hb
  have hstep : a % (b * 2) = a % b + b * (a / b % 2) := Nat.mod_mul
  refine ⟨by omega, ?_, ?_, ?_⟩
  · simp only [ExtendedMantissa.shiftRightOne, h.mantissa, Nat.div_div_eq_div_mul]
  · simp only [ExtendedMantissa.shiftRightOne, h.mantissa, bne_iff_ne, ne_eq]
    rcases Nat.mod_two_eq_zero_or_one (a / b) with hparity | hparity
    · rw [hparity] at hstep ⊢
      omega
    · rw [hparity] at hstep ⊢
      omega
  · simp only [ExtendedMantissa.shiftRightOne, Bool.or_eq_true, h.roundBit, h.stickyBit]
    rw [Nat.mul_comm b 2, Nat.mul_mod_mul_left]
    have hdouble := two_mul_mod (a := a) hb
    split at hdouble
    · omega
    · omega

theorem Cut.shiftRight {em : ExtendedMantissa} {a b : ℕ} (h : Cut em a b) (k : ℕ) :
    Cut (em >>> k) a (b * 2 ^ k) := by
  induction k with
  | zero => exact (Nat.mul_one b).symm ▸ h
  | succ k ih =>
      rw [Nat.pow_succ, ← Nat.mul_assoc]
      exact ih.shiftRightOne

theorem Cut.roundedMantissa {em : ExtendedMantissa} {a b : ℕ} (h : Cut em a b) :
    em.roundedMantissa = nearestEven a b := by
  obtain ⟨hb, hmantissa, hround, hsticky⟩ := h
  obtain ⟨m, r, s⟩ := em
  have hmod := Nat.mod_lt a hb
  have hdouble := two_mul_mod (a := a) hb
  simp only at hmantissa hround hsticky
  subst hmantissa
  unfold nearestEven
  cases r <;> cases s <;>
    simp only [ExtendedMantissa.roundedMantissa, ExtendedMantissa.accuracy,
      Accuracy.roundToNearestEven, true_iff, false_iff, Bool.false_eq_true] at *
  · rw [if_pos (by omega)]
  · rw [if_pos (by omega)]
  · rw [if_neg (by omega)] at hdouble ⊢
    split
    · omega
    · omega
  · rw [if_neg (by omega)] at hdouble
    rw [if_neg (by omega), if_neg (by omega)]

/-- What `div` keeps of a quotient. -/
theorem cut_of_fraction {n d : ℕ} (hd : 0 < d) :
    Cut (.ofMantissaAndAccuracy (n / d) (accuracyOfFraction (n % d) d)) n d := by
  have hmod := Nat.mod_lt n hd
  have hdouble := two_mul_mod (a := n) hd
  unfold accuracyOfFraction
  split
  · rename_i hzero
    refine ⟨hd, rfl, ?_, ?_⟩
    · simp only [ExtendedMantissa.ofMantissaAndAccuracy, hzero]
      simp only [Bool.false_eq_true, false_iff]
      omega
    · simp only [ExtendedMantissa.ofMantissaAndAccuracy, Bool.false_eq_true, false_iff]
      simp [hdouble, hzero, hd]
  · rcases hcompare : compare (2 * (n % d)) d with _ | _ | _
    · have hlt : 2 * (n % d) < d := Nat.compare_eq_lt.mp hcompare
      refine ⟨hd, rfl, ?_, ?_⟩
      · simp only [ExtendedMantissa.ofMantissaAndAccuracy, Bool.false_eq_true, false_iff]
        omega
      · simp only [ExtendedMantissa.ofMantissaAndAccuracy, true_iff]
        rw [if_pos hlt] at hdouble
        omega
    · have heq : 2 * (n % d) = d := Nat.compare_eq_eq.mp hcompare
      refine ⟨hd, rfl, ?_, ?_⟩
      · simp only [ExtendedMantissa.ofMantissaAndAccuracy, true_iff]
        omega
      · simp only [ExtendedMantissa.ofMantissaAndAccuracy, Bool.false_eq_true, false_iff, not_not]
        rw [if_neg (by omega)] at hdouble
        omega
    · have hgt : d < 2 * (n % d) := Nat.compare_eq_gt.mp hcompare
      refine ⟨hd, rfl, ?_, ?_⟩
      · simp only [ExtendedMantissa.ofMantissaAndAccuracy, true_iff]
        omega
      · simp only [ExtendedMantissa.ofMantissaAndAccuracy, true_iff]
        rw [if_neg (by omega)] at hdouble
        omega

theorem cut_exact (m : ℕ) : Cut (.ofMantissaAndAccuracy m .exact) m 1 := by
  refine ⟨Nat.one_pos, (Nat.div_one m).symm, ?_, ?_⟩
  · simp [ExtendedMantissa.ofMantissaAndAccuracy, Nat.mod_one]
  · simp [ExtendedMantissa.ofMantissaAndAccuracy, Nat.mod_one]

/-! ### A rounded number -/

theorem two_zpow_pos (e : ℤ) : (0 : ℚ) < 2 ^ e := by positivity

theorem two_zpow_le {d e : ℤ} (h : d ≤ e) : (2 : ℚ) ^ d ≤ 2 ^ e :=
  zpow_le_zpow_right₀ one_le_two h

theorem two_zpow_add (d e : ℤ) : (2 : ℚ) ^ (d + e) = 2 ^ d * 2 ^ e := zpow_add₀ two_ne_zero d e

theorem lt_of_two_zpow_lt {d e : ℤ} (h : (2 : ℚ) ^ d < 2 ^ e) : d < e :=
  (zpow_lt_zpow_iff_right₀ one_lt_two).mp h

/-- A double's bits in steps of a lower exponent. -/
theorem natCast_mul_zpow (k : ℕ) {t e : ℤ} (h : t ≤ e) :
    (k : ℚ) * 2 ^ e = (k * 2 ^ (e - t).toNat : ℕ) * 2 ^ t := by
  have hexp : ((e - t).toNat : ℤ) + t = e := by omega
  push_cast
  rw [mul_assoc, ← zpow_natCast, ← two_zpow_add, hexp]

/-- `m * 2 ^ t` is the double nearest to `q`, but for the bound on the exponent. -/
structure Rounding (q : ℚ) (m : ℕ) (t : ℤ) : Prop where
  small : -1074 ≤ t
  lower : t = -1074 ∨ 2 ^ (t + 52) ≤ q
  upper : q < 2 ^ (t + 53)
  nearest : ∃ a b : ℕ, 0 < b ∧ q = a / b * 2 ^ t ∧ m = nearestEven a b

section Bounds

variable {q : ℚ} {m k : ℕ} {t e : ℤ}

/-- A double not below a number is not below what it is rounded to. -/
theorem Rounding.le (h : Rounding q m t) (hk : k < 2 ^ 53) (he : -1074 ≤ e) (hq : q ≤ k * 2 ^ e) :
    (m : ℚ) * 2 ^ t ≤ k * 2 ^ e := by
  rcases le_or_gt t e with hle | hgt
  · obtain ⟨a, b, hb, rfl, rfl⟩ := h.nearest
    have hbq : (0 : ℚ) < b := by exact_mod_cast hb
    rw [natCast_mul_zpow k hle] at hq ⊢
    have hq := (div_le_iff₀ hbq).mp (le_of_mul_le_mul_right hq (two_zpow_pos t))
    have hle : nearestEven a b ≤ k * 2 ^ (e - t).toNat := nearestEven_le hb (by exact_mod_cast hq)
    exact mul_le_mul_of_nonneg_right (by exact_mod_cast hle) (two_zpow_pos t).le
  · exfalso
    have hlow := h.lower.resolve_left (by omega)
    have hk : (k : ℚ) < 2 ^ (53 : ℤ) := by exact_mod_cast hk
    have hstep : (k : ℚ) * 2 ^ e < 2 ^ (t + 52) :=
      calc (k : ℚ) * 2 ^ e < 2 ^ (53 : ℤ) * 2 ^ e := mul_lt_mul_of_pos_right hk (two_zpow_pos e)
        _ = 2 ^ (53 + e) := (two_zpow_add 53 e).symm
        _ ≤ 2 ^ (t + 52) := two_zpow_le (by omega)
    linarith

/-- A double not above a number is not above what it is rounded to. -/
theorem Rounding.ge (h : Rounding q m t) (hk : k < 2 ^ 53) (he : -1074 ≤ e) (hq : k * 2 ^ e ≤ q) :
    (k : ℚ) * 2 ^ e ≤ m * 2 ^ t := by
  obtain ⟨a, b, hb, rfl, rfl⟩ := h.nearest
  have hbq : (0 : ℚ) < b := by exact_mod_cast hb
  rcases le_or_gt t e with hle | hgt
  · rw [natCast_mul_zpow k hle] at hq ⊢
    have hq := (le_div_iff₀ hbq).mp (le_of_mul_le_mul_right hq (two_zpow_pos t))
    have hle : k * 2 ^ (e - t).toNat ≤ nearestEven a b := le_nearestEven hb (by exact_mod_cast hq)
    exact mul_le_mul_of_nonneg_right (by exact_mod_cast hle) (two_zpow_pos t).le
  · have hlow := h.lower.resolve_left (by omega)
    rw [add_comm, two_zpow_add] at hlow
    have hlow := (le_div_iff₀ hbq).mp (le_of_mul_le_mul_right hlow (two_zpow_pos t))
    have hbits : 2 ^ 52 ≤ nearestEven a b := le_nearestEven hb (by exact_mod_cast hlow)
    have hk : (k : ℚ) < 2 ^ (53 : ℤ) := by exact_mod_cast hk
    calc (k : ℚ) * 2 ^ e ≤ 2 ^ (53 : ℤ) * 2 ^ e :=
          mul_le_mul_of_nonneg_right hk.le (two_zpow_pos e).le
      _ = 2 ^ (53 + e) := (two_zpow_add 53 e).symm
      _ ≤ 2 ^ (52 + t) := two_zpow_le (by omega)
      _ = 2 ^ (52 : ℤ) * 2 ^ t := two_zpow_add 52 t
      _ ≤ nearestEven a b * 2 ^ t :=
          mul_le_mul_of_nonneg_right (by exact_mod_cast hbits) (two_zpow_pos t).le

theorem Rounding.mantissa_le (h : Rounding q m t) : m ≤ 2 ^ 53 := by
  obtain ⟨a, b, hb, hq, rfl⟩ := h.nearest
  have hbq : (0 : ℚ) < b := by exact_mod_cast hb
  have hupper := h.upper
  rw [add_comm, two_zpow_add, hq] at hupper
  have hupper := (div_lt_iff₀ hbq).mp (lt_of_mul_lt_mul_right hupper (two_zpow_pos t).le)
  have hupper : a < 2 ^ 53 * b := by exact_mod_cast hupper
  exact nearestEven_le hb hupper.le

theorem Rounding.normal (h : Rounding q m t) : t = -1074 ∨ 2 ^ 52 ≤ m := by
  refine h.lower.imp id fun hlow => ?_
  have hlow : ((2 ^ 52 : ℕ) : ℚ) * 2 ^ t ≤ q := by
    rw [add_comm, two_zpow_add] at hlow
    exact_mod_cast hlow
  exact_mod_cast le_of_mul_le_mul_right (h.ge (by norm_num) h.small hlow) (two_zpow_pos t)

/-- Half a step above the largest double. -/
def overflow : ℕ := (2 ^ 54 - 1) * 2 ^ 970

theorem overflow_eq : (overflow : ℚ) = (2 ^ (53 : ℤ) - 1 / 2) * 2 ^ (971 : ℤ) := by
  have hstep : (2 : ℚ) ^ (971 : ℤ) = 2 * 2 ^ 970 := by
    rw [show (971 : ℤ) = (970 + 1 : ℕ) by norm_num, zpow_natCast, pow_succ]
    exact mul_comm _ _
  have hcast : (overflow : ℚ) = 18014398509481983 * 2 ^ 970 := by
    rw [overflow, Nat.cast_mul, Nat.cast_pow]
    norm_num
  rw [hstep, hcast, ← mul_assoc]
  norm_num

theorem two_zpow_1024 : (2 : ℚ) ^ (1024 : ℤ) = 2 ^ (53 : ℤ) * 2 ^ (971 : ℤ) := two_zpow_add 53 971

theorem overflow_lt : (overflow : ℚ) < 2 ^ (1024 : ℤ) := by
  rw [overflow_eq, two_zpow_1024]
  exact mul_lt_mul_of_pos_right (by norm_num) (two_zpow_pos 971)

theorem le_overflow : (2 : ℚ) ^ (1023 : ℤ) ≤ overflow := by
  rw [overflow_eq, show (1023 : ℤ) = 52 + 971 by norm_num, two_zpow_add]
  exact mul_le_mul_of_nonneg_right (by norm_num) (two_zpow_pos 971).le

/-- Below the overflow the exponent fits a double. -/
theorem Rounding.exponent_le (h : Rounding q m t) (hq : q < 2 ^ (1024 : ℤ)) : t ≤ 971 := by
  rcases h.lower with hsmall | hlow
  · omega
  · have := lt_of_two_zpow_lt (hlow.trans_lt hq)
    omega

theorem Rounding.lt_of_lt_overflow (h : Rounding q m t) (hq : q < overflow) :
    (m : ℚ) * 2 ^ t < 2 ^ (1024 : ℤ) := by
  have hmantissa : (m : ℚ) ≤ 2 ^ (53 : ℤ) := by exact_mod_cast h.mantissa_le
  rcases (h.exponent_le (hq.trans overflow_lt)).lt_or_eq with hlt | rfl
  · calc (m : ℚ) * 2 ^ t ≤ 2 ^ (53 : ℤ) * 2 ^ t :=
          mul_le_mul_of_nonneg_right hmantissa (two_zpow_pos t).le
      _ = 2 ^ (53 + t) := (two_zpow_add 53 t).symm
      _ < 2 ^ (1024 : ℤ) := zpow_lt_zpow_right₀ one_lt_two (by omega)
  · obtain ⟨a, b, hb, hqa, rfl⟩ := h.nearest
    have hbq : (0 : ℚ) < b := by exact_mod_cast hb
    rw [hqa, overflow_eq] at hq
    have hq := (div_lt_iff₀ hbq).mp (lt_of_mul_lt_mul_right hq (two_zpow_pos 971).le)
    have hhalf : 2 * a < (2 * (2 ^ 53 - 1) + 1) * b := by
      have : (2 * a : ℚ) < 18014398509481983 * b := by norm_num at hq; linarith
      exact_mod_cast this
    have hbits : nearestEven a b ≤ 2 ^ 53 - 1 := nearestEven_le_of_half hb hhalf
    have hbits : (nearestEven a b : ℚ) < 2 ^ (53 : ℤ) := by
      exact_mod_cast hbits.trans_lt (by norm_num : 2 ^ 53 - 1 < 2 ^ 53)
    rw [two_zpow_1024]
    exact mul_lt_mul_of_pos_right hbits (two_zpow_pos 971)

theorem Rounding.ge_of_overflow_le (h : Rounding q m t) (hq : overflow ≤ q) :
    (2 : ℚ) ^ (1024 : ℤ) ≤ m * 2 ^ t := by
  rcases lt_or_ge q (2 ^ (1024 : ℤ)) with hlt | hge
  · have hhigh := lt_of_two_zpow_lt ((le_overflow.trans hq).trans_lt h.upper)
    have htop := h.exponent_le hlt
    obtain rfl : t = 971 := by omega
    obtain ⟨a, b, hb, hqa, rfl⟩ := h.nearest
    have hbq : (0 : ℚ) < b := by exact_mod_cast hb
    rw [hqa, overflow_eq] at hq
    have hq := (le_div_iff₀ hbq).mp (le_of_mul_le_mul_right hq (two_zpow_pos 971))
    have hhalf : 2 * (2 ^ 53 * b) ≤ 2 * a + b := by
      have : (2 * (9007199254740992 * b) : ℚ) ≤ 2 * a + b := by norm_num at hq; linarith
      exact_mod_cast this
    have hbits : 2 ^ 53 ≤ nearestEven a b := le_nearestEven_of_half hb (by norm_num) hhalf
    rw [two_zpow_1024]
    exact mul_le_mul_of_nonneg_right (by exact_mod_cast hbits) (two_zpow_pos 971).le
  · simpa using h.ge (k := 1) (e := 1024) (by norm_num) (by norm_num) (by simpa using hge)

end Bounds

/-! ### The bits of a double -/

/-- `m` is a mantissa for the exponent `e`. -/
structure Canonical (m : ℕ) (e : ℤ) : Prop where
  pos : 0 < m
  bits : m < 2 ^ 53
  small : -1074 ≤ e
  normal : e = -1074 ∨ 2 ^ 52 ≤ m

theorem unpackSign_packComponents {format : Format} (s : Sign) (exponent mantissa) :
    unpackSign (packComponents format s exponent mantissa) = s.toBitVec := by
  ext i hi
  obtain rfl : i = 0 := by omega
  simp [unpackSign, packComponents, BitVec.getLsbD_eq_getElem, BitVec.getLsbD_append,
    BitVec.getElem_append]

theorem toNat_hiddenBit {m : ℕ} (hlow : 2 ^ 52 ≤ m) (hhigh : m < 2 ^ 53) :
    (1#1 ++ BitVec.ofNat 52 m).toNat = m := by
  rw [BitVec.toNat_append, BitVec.toNat_ofNat, BitVec.toNat_ofNat,
    ← Nat.shiftLeft_add_eq_or_of_lt (Nat.mod_lt _ (by norm_num)), Nat.shiftLeft_eq]
  omega

theorem ofBitVec_toBitVec (s : Sign) : Sign.ofBitVec s.toBitVec = s := by
  cases s
  · rfl
  · rfl

theorem Canonical.unpack_pack {m : ℕ} {e : ℤ} (h : Canonical m e) (he : e ≤ 971) (s : Sign) :
    (pack (.finite s m e h.pos)).unpack = .finite s m e h.pos := by
  have hsmall := h.small
  have hbits := h.bits
  have hpos := h.pos
  unfold Float.Model.unpack Float.Model.pack
  simp only [UnpackedFloat.pack]
  rw [if_neg (by simp only [Format.exponentBias]; norm_num; omega)]
  split
  · rename_i hnormal
    have hlog : m.log2 = 52 := by simpa [Format.mantissaBits] using hnormal
    have hnormal : 2 ^ 52 ≤ m := hlog ▸ Nat.log2_self_le (by omega)
    simp only [UnpackedFloat.unpack, unpackExponent_packComponents, unpackMantissa_packComponents,
      unpackSign_packComponents, ofBitVec_toBitVec]
    rw [if_neg, if_neg]
    · simp only [Format.exponentBias, UnpackedFloat.finite.injEq, toNat_hiddenBit hnormal hbits]
      refine ⟨trivial, trivial, ?_⟩
      rw [BitVec.toNat_ofNat]
      norm_num
      omega
    · rw [← BitVec.toNat_inj, BitVec.toNat_ofNat]
      simp only [Format.exponentBias]
      norm_num
      omega
    · rw [← BitVec.toNat_inj, BitVec.toNat_ofNat]
      simp only [Format.exponentBias]
      norm_num
      omega
  · rename_i hsub
    have hsub : m < 2 ^ 52 := by
      by_contra hge
      exact hsub (congrArg (· + 1) ((Nat.log2_eq_iff (by omega)).mpr ⟨by omega, hbits⟩))
    obtain rfl : e = -1074 := h.normal.resolve_right (by omega)
    simp only [UnpackedFloat.unpack, unpackExponent_packComponents, unpackMantissa_packComponents,
      unpackSign_packComponents, ofBitVec_toBitVec]
    rw [if_neg (by decide), if_pos trivial, dif_neg]
    · simp only [UnpackedFloat.finite.injEq, BitVec.toNat_ofNat, Nat.mod_eq_of_lt hsub, true_and]
      rfl
    · rw [← BitVec.toNat_inj, BitVec.toNat_ofNat, Nat.mod_eq_of_lt hsub]
      exact hpos.ne'

theorem Canonical.unpack_pack_infinity {m : ℕ} {e : ℤ} (h : Canonical m e) (he : 972 ≤ e) :
    (pack (.finite .positive m e h.pos)).unpack = .infinity .positive := by
  unfold Float.Model.unpack Float.Model.pack
  simp only [UnpackedFloat.pack]
  rw [if_pos (by simp only [Format.exponentBias]; norm_num; omega)]
  rfl

/-! ### Rounding a result -/

theorem targetExponent_eq (n : ℤ) : Format.binary64.targetExponent n = max (n - 53) (-1074) := rfl

/-- The number a rounded mantissa and its exponent are. -/
def assemble (m : ℕ) (t : ℤ) : UnpackedFloat :=
  if h : m = 0 then .zero .positive
  else if m < 2 ^ 53 then .finite .positive m t (Nat.pos_of_ne_zero h)
  else .finite .positive (2 ^ 52) (t + 1) (by norm_num)

theorem shiftToTargetExponent_fits {m : ℕ} {t : ℤ} (ht : -1074 ≤ t) (hm : m < 2 ^ 53) :
    shiftToTargetExponent .binary64 m t .exact = (⟨m, false, false⟩, t) := by
  have hlog : m.log2 ≤ 52 := by
    rcases Nat.eq_zero_or_pos m with rfl | hpos
    · exact Nat.zero_le _
    · exact Nat.lt_succ_iff.mp ((Nat.log2_lt hpos.ne').mpr hm)
  have hshift : (Format.binary64.targetExponent (totalExponent m t) - t).toNat = 0 := by
    rw [targetExponent_eq, totalExponent]
    omega
  simp only [shiftToTargetExponent, shiftToExponent, hshift]
  rw [Int.ofNat_zero, Int.add_zero]
  rfl

theorem shiftToTargetExponent_carry {t : ℤ} (ht : -1074 ≤ t) :
    shiftToTargetExponent .binary64 (2 ^ 53) t .exact = (⟨2 ^ 52, false, false⟩, t + 1) := by
  have hshift : (Format.binary64.targetExponent (totalExponent (2 ^ 53) t) - t).toNat = 1 := by
    rw [targetExponent_eq, totalExponent, Nat.log2_two_pow]
    omega
  simp only [shiftToTargetExponent, shiftToExponent, hshift]
  rfl

theorem roundWithAccuracy_eq {mantissa a b : ℕ} {e : ℤ} {accuracy : Accuracy}
    (hcut : Cut (.ofMantissaAndAccuracy mantissa accuracy) a b) (hmantissa : mantissa = a / b)
    (he : e ≤ Format.binary64.targetExponent (totalExponent mantissa e)) :
    ∃ m t, Rounding (a / b * 2 ^ e) m t ∧
      roundWithAccuracy .binary64 .positive mantissa e accuracy = assemble m t := by
  obtain ⟨t, ht⟩ : ∃ t, t = Format.binary64.targetExponent (totalExponent mantissa e) := ⟨_, rfl⟩
  obtain ⟨k, hk⟩ : ∃ k : ℕ, (k : ℤ) = t - e := ⟨(t - e).toNat, by omega⟩
  have htarget := ht
  rw [targetExponent_eq, totalExponent] at htarget
  have hb : (0 : ℚ) < b := by exact_mod_cast hcut.pos
  have hround : Rounding (a / b * 2 ^ e) (nearestEven a (b * 2 ^ k)) t := by
    refine ⟨by omega, ?_, ?_, a, b * 2 ^ k, Nat.mul_pos hcut.pos (by positivity), ?_, rfl⟩
    · rcases eq_or_ne t (-1074) with hsmall | hlarge
      · exact .inl hsmall
      · refine .inr ?_
        have hne : mantissa ≠ 0 := by
          rintro rfl
          rw [Nat.log2_zero] at htarget
          omega
        have hlow : ((2 ^ mantissa.log2 : ℕ) : ℚ) ≤ a / b :=
          calc ((2 ^ mantissa.log2 : ℕ) : ℚ) ≤ mantissa := by exact_mod_cast Nat.log2_self_le hne
            _ ≤ a / b := hmantissa ▸ Nat.cast_div_le
        rw [show t + 52 = mantissa.log2 + e by omega, two_zpow_add, zpow_natCast]
        exact mul_le_mul_of_nonneg_right (by exact_mod_cast hlow) (two_zpow_pos e).le
    · have hhigh : (a / b : ℚ) < (2 ^ (mantissa.log2 + 1) : ℕ) := by
        rw [div_lt_iff₀ hb, mul_comm]
        have hsucc : a < b * (mantissa + 1) := hmantissa ▸ Nat.lt_mul_div_succ a hcut.pos
        exact_mod_cast hsucc.trans_le (Nat.mul_le_mul_left b Nat.lt_log2_self)
      calc (a / b : ℚ) * 2 ^ e < (2 ^ (mantissa.log2 + 1) : ℕ) * 2 ^ e :=
            mul_lt_mul_of_pos_right hhigh (two_zpow_pos e)
        _ = 2 ^ ((mantissa.log2 + 1 : ℕ) + e) := by
            rw [two_zpow_add, zpow_natCast]
            push_cast
            rfl
        _ ≤ 2 ^ (t + 53) := two_zpow_le (by push_cast; omega)
    · rw [show t = k + e by omega, two_zpow_add, zpow_natCast]
      push_cast
      field_simp
  have hfirst : shiftToTargetExponent .binary64 mantissa e accuracy =
      (ExtendedMantissa.ofMantissaAndAccuracy mantissa accuracy >>> k, t) := by
    have hshift : (t - e).toNat = k := by omega
    have hexp : e + (k : ℤ) = t := by omega
    simp only [shiftToTargetExponent, shiftToExponent, ← ht, hshift, hexp]
  refine ⟨_, t, hround, ?_⟩
  simp only [roundWithAccuracy, hfirst, (hcut.shiftRight k).roundedMantissa]
  rcases hround.mantissa_le.lt_or_eq with hlt | heq
  · simp only [shiftToTargetExponent_fits hround.small hlt, assemble, hlt, if_true]
  · have hcarry := shiftToTargetExponent_carry hround.small
    rw [← heq] at hcarry
    simp only [hcarry]
    simp [assemble, heq]

/-! ### Finite doubles that are not negative -/

/-- A finite double that is not negative, and its value. -/
inductive Holds (x : Float) : ℚ → Prop where
  | zero (h : x.toModel.unpack = .zero .positive) : Holds x 0
  | finite {m : ℕ} {e : ℤ} (canonical : Canonical m e) (he : e ≤ 971)
      (h : x.toModel.unpack = .finite .positive m e canonical.pos) : Holds x (m * 2 ^ e)

variable {x y : Float} {u v q : ℚ} {m k : ℕ} {t e : ℤ}

theorem Holds.nonneg (h : Holds x v) : 0 ≤ v := by
  cases h with
  | zero => exact le_refl 0
  | finite _ _ _ => positivity

theorem Holds.not_isNaN (h : Holds x v) : x.isNaN = false := by
  cases h with
  | zero h => exact congrArg UnpackedFloat.isNaN h
  | finite _ _ h => exact congrArg UnpackedFloat.isNaN h

theorem Holds.not_isInf (h : Holds x v) : x.isInf = false := by
  cases h with
  | zero h => exact congrArg UnpackedFloat.isInf h
  | finite _ _ h => exact congrArg UnpackedFloat.isInf h

/-- Below the overflow a rounded number is a double. -/
theorem Rounding.holds (h : Rounding q m t) (hx : x.toModel = .pack (assemble m t))
    (hq : q < overflow) : Holds x (m * 2 ^ t) := by
  have hsmall := h.small
  have hexp := h.exponent_le (hq.trans overflow_lt)
  unfold assemble at hx
  split at hx
  · rename_i hzero
    rw [hzero, Nat.cast_zero, zero_mul]
    exact .zero (hx ▸ rfl)
  · rename_i hne
    split at hx
    · rename_i hlt
      have hcanonical : Canonical m t := ⟨Nat.pos_of_ne_zero hne, hlt, hsmall, h.normal⟩
      exact .finite hcanonical hexp (hx ▸ hcanonical.unpack_pack hexp .positive)
    · rename_i hge
      obtain rfl : m = 2 ^ 53 := le_antisymm h.mantissa_le (Nat.le_of_not_lt hge)
      have hcanonical : Canonical (2 ^ 52) (t + 1) :=
        ⟨by norm_num, by norm_num, by omega, .inr (le_refl _)⟩
      have hexp' : t + 1 ≤ 971 := by
        by_contra hlarge
        have hvalue := h.lt_of_lt_overflow hq
        obtain rfl : t = 971 := by omega
        rw [two_zpow_1024] at hvalue
        exact lt_irrefl _ ((by exact_mod_cast hvalue : ((2 : ℚ) ^ (53 : ℤ)) * 2 ^ (971 : ℤ) < _))
      have hvalue : ((2 ^ 53 : ℕ) : ℚ) * 2 ^ t = (2 ^ 52 : ℕ) * 2 ^ (t + 1) := by
        rw [two_zpow_add]
        push_cast
        ring
      rw [hvalue]
      exact .finite hcanonical hexp' (hx ▸ hcanonical.unpack_pack hexp' .positive)

theorem Rounding.isInf (h : Rounding q m t) (hx : x.toModel = .pack (assemble m t))
    (hq : overflow ≤ q) : x.isInf = true := by
  have hvalue := h.ge_of_overflow_le hq
  have hhigh := lt_of_two_zpow_lt ((le_overflow.trans hq).trans_lt h.upper)
  have hlarge : 2 ^ 52 ≤ m := h.normal.resolve_left (by omega)
  have hunpack : x.toModel.unpack = .infinity .positive := by
    unfold assemble at hx
    rw [dif_neg (by omega)] at hx
    split at hx
    · rename_i hlt
      have hcanonical : Canonical m t := ⟨by omega, hlt, h.small, .inr hlarge⟩
      refine hx ▸ hcanonical.unpack_pack_infinity ?_
      by_contra hexp
      have hstep : (m : ℚ) * 2 ^ t < 2 ^ (1024 : ℤ) :=
        calc (m : ℚ) * 2 ^ t < 2 ^ (53 : ℤ) * 2 ^ t :=
              mul_lt_mul_of_pos_right (by exact_mod_cast hlt) (two_zpow_pos t)
          _ = 2 ^ (53 + t) := (two_zpow_add 53 t).symm
          _ ≤ 2 ^ (1024 : ℤ) := two_zpow_le (by omega)
      exact absurd hvalue hstep.not_ge
    · have hcanonical : Canonical (2 ^ 52) (t + 1) :=
        ⟨by norm_num, by norm_num, by omega, .inr (le_refl _)⟩
      exact hx ▸ hcanonical.unpack_pack_infinity (by omega)
  exact congrArg UnpackedFloat.isInf hunpack

/-- On the side of every double where `q` is. -/
def Rounds (q v : ℚ) : Prop :=
  ∀ (k : ℕ) (e : ℤ), k < 2 ^ 53 → -1074 ≤ e →
    (q ≤ k * 2 ^ e → v ≤ k * 2 ^ e) ∧ (k * 2 ^ e ≤ q → k * 2 ^ e ≤ v)

theorem Rounds.refl (q : ℚ) : Rounds q q := fun _ _ _ _ => ⟨id, id⟩

theorem Rounding.rounds (h : Rounding q m t) : Rounds q (m * 2 ^ t) :=
  fun _ _ hk he => ⟨h.le hk he, h.ge hk he⟩

theorem Rounds.le_natCast (h : Rounds q v) (hk : k < 2 ^ 53) (hq : q ≤ k) : v ≤ k := by
  simpa using (h k 0 hk (by norm_num)).1 (by simpa using hq)

theorem Rounds.natCast_le (h : Rounds q v) (hk : k < 2 ^ 53) (hq : k ≤ q) : k ≤ v := by
  simpa using (h k 0 hk (by norm_num)).2 (by simpa using hq)

theorem Holds.rounds_le (h : Holds x v) (hround : Rounds q u) (hq : q ≤ v) : u ≤ v := by
  cases h with
  | zero => simpa using (hround 0 0 (by norm_num) (by norm_num)).1 (by simpa using hq)
  | finite canonical _ _ => exact (hround _ _ canonical.bits canonical.small).1 hq

theorem Holds.lt_overflow (h : Holds x v) : v < overflow := by
  cases h with
  | zero => exact (two_zpow_pos 1023).trans_le le_overflow
  | finite canonical he h =>
      rename_i m e
      have hbits : (m : ℚ) ≤ 2 ^ (53 : ℤ) - 1 := by
        have : m + 1 ≤ 2 ^ 53 := canonical.bits
        have : ((m + 1 : ℕ) : ℚ) ≤ 2 ^ (53 : ℤ) := by exact_mod_cast this
        push_cast at this
        linarith
      rw [overflow_eq]
      calc (m : ℚ) * 2 ^ e ≤ m * 2 ^ (971 : ℤ) :=
            mul_le_mul_of_nonneg_left (two_zpow_le he) (Nat.cast_nonneg m)
        _ < (2 ^ (53 : ℤ) - 1 / 2) * 2 ^ (971 : ℤ) :=
            mul_lt_mul_of_pos_right (by linarith) (two_zpow_pos 971)

/-! ### Quotients -/

theorem div_rounding {n k : ℕ} {d e : ℤ} (hn : 0 < n) (hk : 0 < k) :
    ∃ m t, Rounding (n * 2 ^ d / (k * 2 ^ e)) m t ∧
      UnpackedFloat.div .binary64 (.finite .positive n d hn) (.finite .positive k e hk) =
        assemble m t := by
  obtain ⟨t, ht⟩ : ∃ t, t = min (d - e)
    (Format.binary64.targetExponent (totalExponent n d - totalExponent k e)) := ⟨_, rfl⟩
  obtain ⟨j, hj⟩ : ∃ j : ℕ, (j : ℤ) = d - e - t := ⟨(d - e - t).toNat, by omega⟩
  have htarget := ht
  rw [targetExponent_eq, totalExponent, totalExponent] at htarget
  have hshift : n <<< j = n * 2 ^ j := Nat.shiftLeft_eq n j
  have hbits : t ≤ Format.binary64.targetExponent (totalExponent (n <<< j / k) t) := by
    rw [targetExponent_eq, totalExponent]
    rcases le_or_gt t (-1074) with hsmall | hlarge
    · omega
    · have hquotient : 2 ^ 52 ≤ n <<< j / k := by
        rw [Nat.le_div_iff_mul_le hk, hshift]
        calc 2 ^ 52 * k ≤ 2 ^ 52 * 2 ^ (k.log2 + 1) := Nat.mul_le_mul_left _ Nat.lt_log2_self.le
          _ = 2 ^ (52 + (k.log2 + 1)) := (Nat.pow_add 2 52 _).symm
          _ ≤ 2 ^ (n.log2 + j) := Nat.pow_le_pow_right (by norm_num) (by omega)
          _ = 2 ^ n.log2 * 2 ^ j := Nat.pow_add 2 _ j
          _ ≤ n * 2 ^ j := Nat.mul_le_mul_right _ (Nat.log2_self_le hn.ne')
      have := (Nat.le_log2 (by positivity)).mpr hquotient
      omega
  obtain ⟨m, s, hround, heq⟩ := roundWithAccuracy_eq (cut_of_fraction hk) rfl hbits
  refine ⟨m, s, ?_, ?_⟩
  · have hvalue : ((n <<< j : ℕ) : ℚ) / k * 2 ^ t = n * 2 ^ d / (k * 2 ^ e) := by
      rw [hshift, show t = d - e - (j : ℤ) by omega, zpow_sub₀ two_ne_zero, zpow_sub₀ two_ne_zero,
        zpow_natCast]
      push_cast
      field_simp
    exact hvalue ▸ hround
  · have hexp : (d - e - t).toNat = j := by omega
    have hdiv : UnpackedFloat.div .binary64 (.finite .positive n d hn) (.finite .positive k e hk) =
        roundWithAccuracy .binary64 .positive (n <<< j / k) t
          (accuracyOfFraction (n <<< j % k) k) := by
      simp only [UnpackedFloat.div, divCore, ← ht, hexp]
      rfl
    rw [hdiv, heq]

theorem ofRatio_rounding {n d : ℕ} (hn : 0 < n) (hd : 0 < d) :
    ∃ m t, Rounding (n / d) m t ∧ (ofRatio n d).toModel = .pack (assemble m t) := by
  obtain ⟨m, t, hround, heq⟩ := div_rounding (d := 0) (e := 0) hn hd
  have hvalue : (n * 2 ^ (0 : ℤ) / (d * 2 ^ (0 : ℤ)) : ℚ) = n / d := by simp
  refine ⟨m, t, hvalue ▸ hround, ?_⟩
  rw [ofRatio, dif_pos ⟨hn, hd⟩, heq]

theorem ofRatio_zero (d : ℕ) : Holds (ofRatio 0 d) 0 := by
  rw [ofRatio, dif_neg (by omega)]
  exact .zero rfl

theorem ofRatio_holds {n d : ℕ} (hd : 0 < d) (hq : (n / d : ℚ) < overflow) :
    ∃ v, Holds (ofRatio n d) v ∧ Rounds (n / d) v := by
  rcases Nat.eq_zero_or_pos n with rfl | hn
  · exact ⟨0, ofRatio_zero d, by simpa using Rounds.refl 0⟩
  · obtain ⟨m, t, hround, heq⟩ := ofRatio_rounding hn hd
    exact ⟨_, hround.holds heq hq, hround.rounds⟩

theorem overflow_le_div {n d : ℕ} (hd : 0 < d) : (overflow : ℚ) ≤ n / d ↔ overflow * d ≤ n := by
  rw [le_div_iff₀ (by exact_mod_cast hd)]
  exact_mod_cast Iff.rfl

/-- The quotients beyond the range of doubles. -/
theorem ofRatio_isInf {n d : ℕ} (hd : 0 < d) : (ofRatio n d).isInf = true ↔ overflow * d ≤ n := by
  rw [← overflow_le_div hd]
  constructor
  · intro hinf
    by_contra hq
    obtain ⟨v, hv, -⟩ := ofRatio_holds hd (not_le.mp hq)
    simp [hv.not_isInf] at hinf
  · intro hq
    have hn : 0 < n := by
      rcases Nat.eq_zero_or_pos n with rfl | hn
      · have := (two_zpow_pos 1023).trans_le le_overflow
        simp only [Nat.cast_zero, zero_div] at hq
        linarith
      · exact hn
    obtain ⟨m, t, hround, heq⟩ := ofRatio_rounding hn hd
    exact hround.isInf heq hq

/-! ### Differences and products -/

theorem round_eq {m : ℕ} (hm : 0 < m) (e : ℤ) :
    ∃ k t, Rounding (m * 2 ^ e) k t ∧
      UnpackedFloat.round .binary64 .positive m e = assemble k t := by
  obtain ⟨k, hk⟩ : ∃ k, k = (e - Format.binary64.targetExponent (totalExponent m e)).toNat :=
    ⟨_, rfl⟩
  have htarget := hk
  rw [targetExponent_eq, totalExponent] at htarget
  have hshift : m <<< k = m * 2 ^ k := Nat.shiftLeft_eq m k
  have hlog : (m <<< k).log2 = m.log2 + k := by
    rw [Nat.log2_eq_iff (by rw [hshift]; positivity), hshift, show m.log2 + k + 1 = m.log2 + 1 + k by
      omega, Nat.pow_add, Nat.pow_add 2 (m.log2 + 1)]
    exact ⟨Nat.mul_le_mul_right _ (Nat.log2_self_le hm.ne'),
      Nat.mul_lt_mul_of_pos_right Nat.lt_log2_self (by positivity)⟩
  have hbits : e - k ≤ Format.binary64.targetExponent (totalExponent (m <<< k) (e - k)) := by
    rw [targetExponent_eq, totalExponent, hlog]
    omega
  obtain ⟨r, t, hround, heq⟩ := roundWithAccuracy_eq (cut_exact (m <<< k)) (Nat.div_one _).symm hbits
  refine ⟨r, t, ?_, ?_⟩
  · have hvalue : ((m <<< k : ℕ) : ℚ) / (1 : ℕ) * 2 ^ (e - k) = m * 2 ^ e := by
      rw [hshift, zpow_sub₀ two_ne_zero, zpow_natCast]
      push_cast
      field_simp
    exact hvalue ▸ hround
  · simp only [UnpackedFloat.round, decreaseExponent, ← hk, heq]

theorem normalize_natCast (m : ℕ) (e : ℤ) (hq : (m : ℚ) * 2 ^ e < overflow)
    (hx : x.toModel = .pack (UnpackedFloat.normalize .binary64 m e .positive)) :
    ∃ v, Holds x v ∧ Rounds (m * 2 ^ e) v := by
  rcases Nat.eq_zero_or_pos m with rfl | hm
  · have hzero : UnpackedFloat.normalize .binary64 (0 : ℕ) e .positive = .zero .positive := by
      simp [UnpackedFloat.normalize]
    refine ⟨0, .zero (by rw [hx, hzero]; rfl), ?_⟩
    simpa using Rounds.refl 0
  · have hpos : compare (m : ℤ) 0 = .gt := compare_gt_iff_gt.mpr (by exact_mod_cast hm)
    obtain ⟨k, t, hround, heq⟩ := round_eq hm e
    rw [UnpackedFloat.normalize, hpos] at hx
    exact ⟨_, hround.holds (hx.trans (congrArg _ heq)) hq, hround.rounds⟩

theorem Holds.sub (hx : Holds x u) (hy : Holds y v) (h : v ≤ u) :
    ∃ w, Holds (x - y) w ∧ Rounds (u - v) w := by
  have hsub : (x - y).toModel =
      .pack (UnpackedFloat.sub .binary64 x.toModel.unpack y.toModel.unpack) := rfl
  have hlt := hx.lt_overflow
  cases hy with
  | zero hy =>
      rw [sub_zero]
      refine ⟨u, ?_, Rounds.refl u⟩
      rw [hy] at hsub
      cases hx with
      | zero hx =>
          rw [hx] at hsub
          exact .zero (hsub ▸ rfl)
      | finite canonical he hx =>
          rw [hx] at hsub
          exact .finite canonical he (hsub ▸ canonical.unpack_pack he .positive)
  | finite canonical' he' hy =>
      rename_i n d
      have hpos : (0 : ℚ) < n * 2 ^ d := mul_pos (by exact_mod_cast canonical'.pos) (two_zpow_pos d)
      cases hx with
      | zero => exact absurd h hpos.not_ge
      | finite canonical he hx =>
          rename_i m e
          rw [hx, hy] at hsub
          rw [natCast_mul_zpow m (min_le_left e d), natCast_mul_zpow n (min_le_right e d)] at h ⊢
          have hle : n * 2 ^ (d - min e d).toNat ≤ m * 2 ^ (e - min e d).toNat := by
            exact_mod_cast le_of_mul_le_mul_right h (two_zpow_pos (min e d))
          rw [← sub_mul, ← Nat.cast_sub hle]
          refine normalize_natCast _ _ (lt_of_le_of_lt ?_ hlt) ?_
          · rw [natCast_mul_zpow m (min_le_left e d)]
            exact mul_le_mul_of_nonneg_right (by exact_mod_cast Nat.sub_le _ _) (two_zpow_pos _).le
          · rw [hsub, Nat.cast_sub hle, ← Nat.shiftLeft_eq, ← Nat.shiftLeft_eq]
            rfl

/-- A product with a double whose mantissa is full. -/
theorem Holds.mul {n : ℕ} {d : ℤ} (hx : Holds x u) (canonical' : Canonical n d) (hn : 2 ^ 52 ≤ n)
    (hy : y.toModel.unpack = .finite .positive n d canonical'.pos)
    (hq : u * (n * 2 ^ d) < overflow) : ∃ w, Holds (x * y) w ∧ Rounds (u * (n * 2 ^ d)) w := by
  have hmul : (x * y).toModel =
      .pack (UnpackedFloat.mul .binary64 x.toModel.unpack y.toModel.unpack) := rfl
  rw [hy] at hmul
  cases hx with
  | zero hx =>
      have hzero : UnpackedFloat.mul .binary64 (.zero .positive)
          (.finite .positive n d canonical'.pos) = .zero .positive := by
        simp only [UnpackedFloat.mul]
        rfl
      rw [hx, hzero] at hmul
      refine ⟨0, .zero (by rw [hmul]; rfl), ?_⟩
      simpa using Rounds.refl 0
  | finite canonical he hx =>
      rename_i m e
      rw [hx] at hmul
      have hbits : e + d ≤ Format.binary64.targetExponent (totalExponent (m * n) (e + d)) := by
        have hproduct : 2 ^ 52 ≤ m * n := hn.trans (Nat.le_mul_of_pos_left n canonical.pos)
        have := (Nat.le_log2 (by omega)).mpr hproduct
        rw [targetExponent_eq, totalExponent]
        omega
      obtain ⟨r, t, hround, heq⟩ := roundWithAccuracy_eq (cut_exact (m * n)) (Nat.div_one _).symm hbits
      have hvalue : ((m * n : ℕ) : ℚ) / (1 : ℕ) * 2 ^ (e + d) = m * 2 ^ e * (n * 2 ^ d) := by
        rw [two_zpow_add]
        push_cast
        ring
      rw [hvalue] at hround
      exact ⟨_, hround.holds (hmul.trans (congrArg _ heq)) hq, hround.rounds⟩

/-! ### Back to integers -/

theorem Holds.truncate (h : Holds x v) (nan negativeInfinity positiveInfinity : ℤ) :
    ∃ n : ℕ, truncate nan negativeInfinity positiveInfinity x = n ∧ n ≤ v ∧ v < n + 1 := by
  cases h with
  | zero h => exact ⟨0, by rw [truncate, h]; rfl, by simp, by simp⟩
  | finite canonical he h =>
      rename_i m e
      refine ⟨scale m e, by rw [Double.truncate, h]; rfl, ?_⟩
      cases e with
      | ofNat j => simp [scale]
      | negSucc j =>
          have hpow : (0 : ℚ) < 2 ^ (j + 1) := by positivity
          have hpos : 0 < 2 ^ (j + 1) := by positivity
          have hlow : m / 2 ^ (j + 1) * 2 ^ (j + 1) ≤ m := Nat.div_mul_le_self m _
          have hhigh : m < (m / 2 ^ (j + 1) + 1) * 2 ^ (j + 1) := by
            rw [Nat.mul_comm]
            exact Nat.lt_mul_div_succ m hpos
          simp only [scale, zpow_negSucc, ← div_eq_mul_inv]
          exact ⟨(le_div_iff₀ hpow).mpr (by exact_mod_cast hlow),
            (div_lt_iff₀ hpow).mpr (by exact_mod_cast hhigh)⟩

theorem Holds.nearest_le (h : Holds x v) {c : ℕ} (hv : v ≤ c) :
    ∃ n : ℕ, nearest x 1 = some (n : ℤ) ∧ n ≤ c := by
  cases h with
  | zero h => exact ⟨0, by rw [nearest, h]; rfl, Nat.zero_le c⟩
  | finite canonical he h =>
      rename_i m e
      refine ⟨scaleNearest m e 1, by rw [nearest, h]; rfl, ?_⟩
      cases e with
      | ofNat j =>
          simp only [scaleNearest, Nat.mul_one]
          exact_mod_cast (by simpa using hv : (m : ℚ) * 2 ^ j ≤ c)
      | negSucc j =>
          have hpow : (0 : ℚ) < 2 ^ (j + 1) := by positivity
          simp only [zpow_negSucc, ← div_eq_mul_inv] at hv
          have hv := (div_le_iff₀ hpow).mp hv
          simp only [scaleNearest, Nat.mul_one]
          exact nearestEven_le (by positivity) (by exact_mod_cast hv)

/-! ### The other sign -/

theorem Holds.neg_not_isInf (h : Holds x v) : x.neg.isInf = false := by
  have hneg : x.neg.toModel = .pack x.toModel.unpack.neg := rfl
  have hinf : x.neg.isInf = x.neg.toModel.unpack.isInf := rfl
  cases h with
  | zero h =>
      rw [hinf, hneg, h]
      rfl
  | finite canonical he h =>
      rw [hinf, hneg, h]
      exact congrArg UnpackedFloat.isInf (canonical.unpack_pack he .negative)

theorem isInf_neg (h : x.isInf = true) : x.neg.isInf = true := by
  have hneg : x.neg.toModel = .pack x.toModel.unpack.neg := rfl
  have hinf : x.isInf = x.toModel.unpack.isInf := rfl
  have hinf' : x.neg.isInf = x.neg.toModel.unpack.isInf := rfl
  rw [hinf] at h
  rw [hinf', hneg]
  cases hunpack : x.toModel.unpack with
  | infinity s =>
      cases s
      · rfl
      · rfl
  | _ => simp [hunpack, UnpackedFloat.isInf] at h

end Double
