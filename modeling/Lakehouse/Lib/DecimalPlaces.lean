/-
Rounding a double to two decimal places stays among the finite doubles.

* `canonical_of_unpack` — what the parts of a finite double can be.
* `Holds.div` — quotients of doubles.
* `roundTo_two_isFinite` — no finite double is rounded to an infinite one.
-/

import Lakehouse.Lib.Rounding

namespace Double

open Float.Model
open Float.Model.UnpackedFloat

variable {x y : Float} {u : ℚ}

theorem canonical_of_unpack {s : Sign} {m : ℕ} {e : ℤ} {h : 0 < m}
    (hx : x.toModel.unpack = .finite s m e h) : Canonical m e ∧ e ≤ 971 := by
  unfold Float.Model.unpack UnpackedFloat.unpack at hx
  dsimp only at hx
  split at hx
  · split at hx <;> cases hx
  split at hx
  · split at hx
    · cases hx
    · rename_i hzero _
      have hexp : (@unpackExponent Format.binary64 x.toModel.toBits.toBitVec).toNat = 0 := by rw [hzero]; rfl
      have hbits := (@unpackMantissa Format.binary64 x.toModel.toBits.toBitVec).isLt
      simp only [UnpackedFloat.finite.injEq] at hx
      obtain ⟨-, hm, he⟩ := hx
      norm_num [Format.exponentBias, hexp] at he hbits
      refine ⟨⟨h, ?_, ?_, .inl ?_⟩, ?_⟩
      · omega
      · omega
      · omega
      · omega
  · rename_i hmax hmin
    have hexp := (@unpackExponent Format.binary64 x.toModel.toBits.toBitVec).isLt
    have hlow : (@unpackExponent Format.binary64 x.toModel.toBits.toBitVec).toNat ≠ 0 := fun heq =>
      hmin (BitVec.eq_of_toNat_eq heq)
    have hhigh : (@unpackExponent Format.binary64 x.toModel.toBits.toBitVec).toNat ≠ 2047 := fun heq =>
      hmax (BitVec.eq_of_toNat_eq heq)
    have hbits := (@unpackMantissa Format.binary64 x.toModel.toBits.toBitVec).isLt
    simp only [UnpackedFloat.finite.injEq] at hx
    obtain ⟨-, hm, he⟩ := hx
    rw [BitVec.toNat_append, ← Nat.shiftLeft_add_eq_or_of_lt hbits, Nat.shiftLeft_eq] at hm
    norm_num [Format.exponentBias] at he hm hbits hexp
    refine ⟨⟨h, ?_, ?_, .inr ?_⟩, ?_⟩
    · omega
    · omega
    · omega
    · omega

/-- A quotient of a double and a positive one. -/
theorem Holds.div {n : ℕ} {d : ℤ} (hx : Holds x u) {hn : 0 < n}
    (hy : y.toModel.unpack = .finite .positive n d hn) (hq : u / (n * 2 ^ d) < overflow) :
    ∃ w, Holds (x / y) w := by
  have hdiv : (x / y).toModel =
      .pack (UnpackedFloat.div .binary64 x.toModel.unpack y.toModel.unpack) := rfl
  rw [hy] at hdiv
  cases hx with
  | zero hx =>
      have hzero : UnpackedFloat.div .binary64 (.zero .positive) (.finite .positive n d hn) =
          .zero .positive := by
        simp only [UnpackedFloat.div]
        rfl
      rw [hx, hzero] at hdiv
      exact ⟨0, .zero (by rw [hdiv]; rfl)⟩
  | finite canonical he hx =>
      rw [hx] at hdiv
      obtain ⟨m, t, hround, heq⟩ := div_rounding canonical.pos hn
      exact ⟨_, hround.holds (hdiv.trans (congrArg _ heq)) hq⟩

/-- A small number is a double. -/
theorem toFloat_holds {k : ℕ} (hk : k < 2 ^ 53) : ∃ v, Holds k.toUInt64.toFloat v ∧ v ≤ k := by
  have hnat : k.toUInt64.toNat = k := Nat.mod_eq_of_lt (hk.trans (by norm_num))
  have hmodel : k.toUInt64.toFloat.toModel =
      .pack (UnpackedFloat.normalize .binary64 (k : ℕ) 0 .positive) := by
    have hof : k.toUInt64.toFloat.toModel =
      .pack (UnpackedFloat.normalize .binary64 (k.toUInt64.toNat : ℕ) 0 .positive) := rfl
    rw [hof, hnat]
  have hvalue : (k : ℚ) * 2 ^ (0 : ℤ) = k := by simp
  have hsmall : (k : ℚ) * 2 ^ (0 : ℤ) < overflow := by
    rw [hvalue]
    calc (k : ℚ) < 2 ^ (53 : ℤ) := by exact_mod_cast hk
      _ ≤ 2 ^ (1023 : ℤ) := two_zpow_le (by norm_num)
      _ ≤ overflow := le_overflow
  obtain ⟨v, hv, hround⟩ := normalize_natCast k 0 hsmall hmodel
  rw [hvalue] at hround
  exact ⟨v, hv, hround.le_natCast hk le_rfl⟩

theorem unpack_hundred :
    (getElem Float.exactlyRepresentablePowersOfTen 2 (by decide)).toModel.unpack =
      .finite .positive 7036874417766400 (-46) (by norm_num) := rfl

/-- Hundredths. -/
theorem ofScientific_two_holds {k : ℕ} (hk : (k / (100 : ℕ) : ℚ) < overflow) :
    ∃ v, Holds (Float.ofScientific k true 2) v := by
  unfold Float.ofScientific
  split
  · rename_i hsmall
    obtain ⟨v, hv, hle⟩ := toFloat_holds hsmall.1
    rw [if_pos rfl]
    refine hv.div unpack_hundred ?_
    have hhundred : ((7036874417766400 : ℕ) * 2 ^ (-46 : ℤ) : ℚ) = (100 : ℕ) := by norm_num
    rw [hhundred]
    exact (div_le_div_of_nonneg_right hle (by norm_num)).trans_lt hk
  · rename_i hlarge
    have hpos : 0 < k := by omega
    have hratio : Float.ofModel (Float.Model.ofScientific k (Int.negOfNat 2)) = ofRatio k 100 := by
      unfold Float.Model.ofScientific UnpackedFloat.ofScientific
      rw [dif_neg hpos.ne', if_neg (by decide), if_neg, if_neg (by decide), ofRatio,
        dif_pos ⟨hpos, by norm_num⟩]
      · rfl
      · have hexp : Int.negOfNat 2 = -2 := rfl
        rw [hexp]
        norm_num
    rw [if_pos rfl]
    dsimp only
    rw [hratio]
    obtain ⟨v, hv, -⟩ := ofRatio_holds (by norm_num) hk
    exact ⟨v, hv⟩

/-- The hundredths of a finite double are not too many. -/
theorem scaleNearest_lt {m : ℕ} {e : ℤ} (h : Canonical m e) (he : e ≤ 971) :
    (scaleNearest m e (10 ^ 2) / (100 : ℕ) : ℚ) < overflow := by
  have hbits := h.bits
  cases e with
  | ofNat j =>
      have hvalue : (scaleNearest m (.ofNat j) (10 ^ 2) / (100 : ℕ) : ℚ) = m * 2 ^ (j : ℤ) := by
        simp only [scaleNearest]
        push_cast
        norm_num
      have hlt : (m : ℚ) * 2 ^ (j : ℤ) < overflow := by
        have hle : (m : ℚ) ≤ 2 ^ (53 : ℤ) - 1 := by
          have hcast : ((m + 1 : ℕ) : ℚ) ≤ (2 ^ 53 : ℕ) := by exact_mod_cast hbits
          push_cast at hcast
          norm_num at hcast ⊢
          linarith
        rw [overflow_eq]
        calc (m : ℚ) * 2 ^ (j : ℤ) ≤ m * 2 ^ (971 : ℤ) :=
              mul_le_mul_of_nonneg_left (two_zpow_le he) (Nat.cast_nonneg m)
          _ < (2 ^ (53 : ℤ) - 1 / 2) * 2 ^ (971 : ℤ) :=
              mul_lt_mul_of_pos_right (by linarith) (two_zpow_pos 971)
      rw [hvalue]
      exact hlt
  | negSucc j =>
      have hle : scaleNearest m (.negSucc j) (10 ^ 2) ≤ m * 10 ^ 2 := by
        simp only [scaleNearest]
        exact nearestEven_le (by positivity) (Nat.le_mul_of_pos_right _ (by positivity))
      have hcast : (scaleNearest m (.negSucc j) (10 ^ 2) : ℚ) ≤ m * 100 := by
        exact_mod_cast hle
      have hm : (m : ℚ) < 2 ^ (53 : ℤ) := by exact_mod_cast hbits
      calc (scaleNearest m (.negSucc j) (10 ^ 2) / (100 : ℕ) : ℚ) ≤ m := by
            rw [div_le_iff₀ (by norm_num)]
            exact_mod_cast hcast
        _ < 2 ^ (53 : ℤ) := hm
        _ ≤ 2 ^ (1023 : ℤ) := two_zpow_le (by norm_num)
        _ ≤ overflow := le_overflow

theorem Holds.neg_not_isNaN {v : ℚ} (h : Holds x v) : x.neg.isNaN = false := by
  have hneg : x.neg.toModel = .pack x.toModel.unpack.neg := rfl
  have hnan : x.neg.isNaN = x.neg.toModel.unpack.isNaN := rfl
  cases h with
  | zero h =>
      rw [hnan, hneg, h]
      rfl
  | finite canonical he h =>
      rw [hnan, hneg, h]
      exact congrArg UnpackedFloat.isNaN (canonical.unpack_pack he .negative)

/-- Neither a NaN nor infinite. -/
def IsFinite (x : Float) : Prop := x.isNaN = false ∧ x.isInf = false

/-- A finite double stays finite. -/
theorem roundTo_two_isFinite (h : IsFinite x) : IsFinite (roundTo 2 x) := by
  unfold roundTo
  split
  · rename_i m e _ hx
    obtain ⟨canonical, he⟩ := canonical_of_unpack hx
    obtain ⟨v, hv⟩ := ofScientific_two_holds (scaleNearest_lt canonical he)
    exact ⟨hv.not_isNaN, hv.not_isInf⟩
  · rename_i m e _ hx
    obtain ⟨canonical, he⟩ := canonical_of_unpack hx
    obtain ⟨v, hv⟩ := ofScientific_two_holds (scaleNearest_lt canonical he)
    exact ⟨hv.neg_not_isNaN, hv.neg_not_isInf⟩
  · exact h

/-- A quotient that is not infinite is finite. -/
theorem ofRatio_isFinite {n d : ℕ} (hd : 0 < d) (h : (ofRatio n d).isInf = false) :
    IsFinite (ofRatio n d) := by
  have hlt : (n / d : ℚ) < overflow := by
    by_contra hge
    rw [not_lt, overflow_le_div hd, ← ofRatio_isInf hd, h] at hge
    cases hge
  obtain ⟨v, hv, -⟩ := ofRatio_holds hd hlt
  exact ⟨hv.not_isNaN, hv.not_isInf⟩

end Double
