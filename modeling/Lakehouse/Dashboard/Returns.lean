/-
When the built-ins of the exporter return.

* `returns_bind`, `returns_map`, `returns_mapM` — computations by their parts.
* `equal_of_within`, `equalWithin_returns` — `==`, and when its recursion limit is out of
  reach.
* `repr_returns`, `str_returns` — `repr` and `str`.
* `trueDiv_returns`, `floatOfInt_isInf` — the numbers that are no doubles.
* `milliseconds_returns` — `datetime.fromtimestamp(n / 1000)`: the doubles round
  no time across the end of the year 9999.
-/

import Lakehouse.Dashboard.PyTime
import Lakehouse.Lib.Result
import Lakehouse.Lib.Rounding

namespace Lakehouse.Dashboard

/-- A computation returns. -/
def Returns {α : Type} (x : Py α) : Prop := ∃ a, x = .ok a

@[simp] theorem returns_ok {α : Type} (a : α) : Returns (.ok a : Py α) := ⟨a, rfl⟩

@[simp] theorem not_returns_error {α : Type} (e : PyError) : ¬ Returns (.error e : Py α) := by
  rintro ⟨_, h⟩
  cases h

theorem returns_bind {α β : Type} {x : Py α} {f : α → Py β} :
    Returns (x >>= f) ↔ ∃ a, x = .ok a ∧ Returns (f a) := by
  simp only [Returns, Result.bind_eq_ok]
  constructor
  · rintro ⟨b, a, hx, hf⟩
    exact ⟨a, hx, b, hf⟩
  · rintro ⟨a, hx, b, hf⟩
    exact ⟨b, a, hx, hf⟩

@[simp] theorem returns_pure {α : Type} (a : α) : Returns (pure a : Py α) := ⟨a, rfl⟩

/-- Followed by what cannot raise, a computation returns when it did alone. -/
theorem returns_map {α β : Type} {x : Py α} {f : α → β} :
    Returns (x >>= fun a => pure (f a)) ↔ Returns x := by
  rw [returns_bind]
  constructor
  · rintro ⟨a, hx, _⟩
    exact ⟨a, hx⟩
  · rintro ⟨a, hx⟩
    exact ⟨a, hx, returns_pure _⟩

theorem returns_exceptMap {α β : Type} {x : Py α} (f : α → β) :
    Returns (x.map f) ↔ Returns x := by
  cases x with
  | error e => simp [Except.map]
  | ok a => simp [Except.map]

theorem returns_mapM {α β : Type} {f : α → Py β} {xs : List α} :
    Returns (xs.mapM f) ↔ ∀ x ∈ xs, Returns (f x) := by
  simp only [Returns, Result.mapM_eq_ok]
  constructor
  · rintro ⟨ys, hys⟩ x hx
    obtain ⟨y, _, hy⟩ := Result.exists_of_mem_left hys hx
    exact ⟨y, hy⟩
  · exact Result.exists_forall₂

/-! ### `==` and `str` -/

theorem equalItems_of_length {xs ys : List Json} (h : xs.length ≠ ys.length) :
    equalItems xs ys = false := by
  induction xs generalizing ys with
  | nil =>
      cases ys with
      | nil => exact absurd rfl h
      | cons y ys => rfl
  | cons x xs ih =>
      cases ys with
      | nil => rfl
      | cons y ys => rw [equalItems, ih fun heq => h (congrArg (· + 1) heq), Bool.and_false]

mutual
/-- What `==` gives when it does not run into its limit. -/
theorem equal_of_within : ∀ (a b : Json) {depth : Nat} {same : Bool},
    equalWithin a b depth = .ok same → equal a b = same
  | .arr xs, b, depth, same, h => by
      cases b with
      | arr ys =>
          cases depth with
          | zero => cases h
          | succ depth =>
              rw [equalWithin] at h
              rw [equal]
              split at h
              · rename_i hlength
                exact equalItems_of_within xs ys hlength h
              · rename_i hlength
                rw [equalItems_of_length hlength]
                exact Except.ok.inj h
      | _ => exact Except.ok.inj h
  | .obj d, b, depth, same, h => by
      cases b with
      | obj e =>
          cases depth with
          | zero => cases h
          | succ depth =>
              rw [equalWithin] at h
              rw [equal]
              split at h
              · rename_i hlength
                rw [hlength, beq_self_eq_true, Bool.true_and]
                exact equalMembers_of_within d e h
              · rename_i hlength
                rw [beq_eq_false_iff_ne.mpr hlength, Bool.false_and]
                exact Except.ok.inj h
      | _ => exact Except.ok.inj h
  | .null, b, _, _, h => by cases b <;> exact Except.ok.inj h
  | .bool _, b, _, _, h => by cases b <;> exact Except.ok.inj h
  | .int _, b, _, _, h => by cases b <;> exact Except.ok.inj h
  | .float _, b, _, _, h => by cases b <;> exact Except.ok.inj h
  | .str _, b, _, _, h => by cases b <;> exact Except.ok.inj h

theorem equalItems_of_within : ∀ (xs ys : List Json) {depth : Nat} {same : Bool},
    xs.length = ys.length → equalItemsWithin xs ys depth = .ok same → equalItems xs ys = same
  | [], ys, depth, same, hlength, h => by
      obtain rfl := List.length_eq_zero_iff.mp hlength.symm
      exact Except.ok.inj h
  | x :: xs, [], _, _, hlength, h => by simp at hlength
  | x :: xs, y :: ys, depth, same, hlength, h => by
      obtain ⟨first, hfirst, h⟩ := Result.bind_eq_ok.mp h
      rw [equalItems, equal_of_within x y hfirst]
      split at h
      · rename_i hsame
        rw [hsame, Bool.true_and]
        exact equalItems_of_within xs ys (Nat.succ.inj hlength) h
      · rename_i hsame
        rw [Bool.eq_false_iff.mpr hsame, Bool.false_and]
        exact Except.ok.inj h

theorem equalMembers_of_within : ∀ (d e : Dict) {depth : Nat} {same : Bool},
    equalMembersWithin d e depth = .ok same → equalMembers d e = same
  | [], e, depth, same, h => Except.ok.inj h
  | (name, x) :: d, e, depth, same, h => by
      rw [equalMembersWithin] at h
      rw [equalMembers]
      cases hlookup : Json.lookup name e with
      | none =>
          rw [hlookup] at h
          exact Except.ok.inj h
      | some y =>
          rw [hlookup] at h
          obtain ⟨first, hfirst, h⟩ := Result.bind_eq_ok.mp h
          simp only
          rw [equal_of_within x y hfirst]
          split at h
          · rename_i hsame
            rw [hsame, Bool.true_and]
            exact equalMembers_of_within d e h
          · rename_i hsame
            rw [Bool.eq_false_iff.mpr hsame, Bool.false_and]
            exact Except.ok.inj h
end

mutual
/-- Down to the nesting of what is compared with, `==` does not run into its limit. -/
theorem equalWithin_returns : ∀ (a b : Json) {depth : Nat}, b.nesting ≤ depth →
    Returns (equalWithin a b depth)
  | .arr xs, b, depth, h => by
      cases b with
      | arr ys =>
          cases depth with
          | zero => simp [Json.nesting] at h
          | succ depth =>
              rw [Json.nesting, Nat.succ_le_succ_iff, Json.nestingList_le] at h
              rw [equalWithin]
              split
              · exact equalItemsWithin_returns xs ys h
              · exact returns_ok false
      | _ => exact returns_ok _
  | .obj d, b, depth, h => by
      cases b with
      | obj e =>
          cases depth with
          | zero => simp [Json.nesting] at h
          | succ depth =>
              rw [Json.nesting, Nat.succ_le_succ_iff, Json.nestingFields_le] at h
              rw [equalWithin]
              split
              · exact equalMembersWithin_returns d e h
              · exact returns_ok false
      | _ => exact returns_ok _
  | .null, b, _, _ => by cases b <;> exact returns_ok _
  | .bool _, b, _, _ => by cases b <;> exact returns_ok _
  | .int _, b, _, _ => by cases b <;> exact returns_ok _
  | .float _, b, _, _ => by cases b <;> exact returns_ok _
  | .str _, b, _, _ => by cases b <;> exact returns_ok _

theorem equalItemsWithin_returns : ∀ (xs ys : List Json) {depth : Nat},
    (∀ y ∈ ys, y.nesting ≤ depth) → Returns (equalItemsWithin xs ys depth)
  | [], _, _, _ => returns_ok true
  | x :: xs, [], _, _ => returns_ok true
  | x :: xs, y :: ys, depth, h => by
      rw [List.forall_mem_cons] at h
      obtain ⟨same, hsame⟩ := equalWithin_returns x y h.1
      rw [equalItemsWithin, returns_bind]
      refine ⟨same, hsame, ?_⟩
      split
      · exact equalItemsWithin_returns xs ys h.2
      · exact returns_pure false

theorem equalMembersWithin_returns : ∀ (d e : Dict) {depth : Nat},
    (∀ f ∈ e, f.2.nesting ≤ depth) → Returns (equalMembersWithin d e depth)
  | [], _, _, _ => returns_ok true
  | (name, x) :: d, e, depth, h => by
      rw [equalMembersWithin]
      cases hlookup : Json.lookup name e with
      | none => exact returns_ok false
      | some y =>
          obtain ⟨same, hsame⟩ := equalWithin_returns x y (h _ (Json.mem_of_lookup hlookup))
          simp only
          rw [returns_bind]
          refine ⟨same, hsame, ?_⟩
          split
          · exact equalMembersWithin_returns d e h
          · exact returns_pure false
end

/-- A value that `repr` writes an int of. -/
def ShortInt (value : Json) : Prop :=
  ∀ n, value = .int n → (Nat.toDigits 10 n.natAbs).length ≤ maxStrDigits

mutual
/-- `repr` returns when nothing is too long or nested too deep. -/
theorem repr_returns (py : Python) : ∀ (value : Json) (depth : Nat),
    Returns (py.repr value depth) ↔ value.nesting ≤ depth ∧ value.AllLeaves ShortInt
  | .arr xs, 0 => by simp [Python.repr, Json.nesting]
  | .arr xs, depth + 1 => by
      rw [Python.repr, returns_bind]
      simp only [returns_ok, and_true]
      rw [Json.nesting, Nat.succ_le_succ_iff, Json.nestingList_le, Json.allLeaves_arr]
      exact (reprItems_returns py xs depth).trans forall₂_and
  | .obj d, 0 => by simp [Python.repr, Json.nesting]
  | .obj d, depth + 1 => by
      rw [Python.repr, returns_bind]
      simp only [returns_ok, and_true]
      rw [Json.nesting, Nat.succ_le_succ_iff, Json.nestingFields_le, Json.allLeaves_obj]
      exact (reprMembers_returns py d depth).trans forall₂_and
  | .int n, depth => by
      simp only [Python.repr, intText, Json.nesting, Nat.zero_le, true_and, Json.allLeaves_int,
        ShortInt, Json.int.injEq, forall_eq']
      split
      · simp_all
      · simp_all
  | .null, depth => by simp [Python.repr, Json.nesting, ShortInt]
  | .bool b, depth => by simp [Python.repr, Json.nesting, ShortInt]
  | .float x, depth => by simp [Python.repr, Json.nesting, ShortInt]
  | .str s, depth => by simp [Python.repr, Json.nesting, ShortInt]

theorem reprItems_returns (py : Python) : ∀ (xs : List Json) (depth : Nat),
    Returns (py.reprItems xs depth) ↔ ∀ x ∈ xs, x.nesting ≤ depth ∧ x.AllLeaves ShortInt
  | [], depth => by simp [Python.reprItems]
  | x :: xs, depth => by
      rw [List.forall_mem_cons, ← repr_returns py x depth, ← reprItems_returns py xs depth,
        Python.reprItems, returns_bind]
      simp only [returns_bind, returns_ok, and_true]
      exact exists_and_right

theorem reprMembers_returns (py : Python) : ∀ (d : Dict) (depth : Nat),
    Returns (py.reprMembers d depth) ↔ ∀ f ∈ d, f.2.nesting ≤ depth ∧ f.2.AllLeaves ShortInt
  | [], depth => by simp [Python.reprMembers]
  | (name, x) :: d, depth => by
      rw [List.forall_mem_cons, ← repr_returns py x depth, ← reprMembers_returns py d depth,
        Python.reprMembers, returns_bind]
      simp only [returns_bind, returns_ok, and_true]
      exact exists_and_right
end

/-- `str` returns when `repr` would; a string counts as nested in nothing. -/
theorem str_returns (py : Python) (value : Json) :
    Returns (py.str value) ↔ value.nesting ≤ py.reprDepth ∧ value.AllLeaves ShortInt := by
  cases value with
  | str s => simp [Python.str, Json.nesting, ShortInt]
  | _ =>
      rw [← repr_returns, Python.str, returns_exceptMap]
      simp

/-! ### Numbers that are no doubles -/

theorem trueDiv_returns {n d : ℕ} (hd : 0 < d) :
    Returns (trueDiv n d) ↔ n < Double.overflow * d := by
  unfold trueDiv
  split
  · rename_i h
    have hlarge := (Double.ofRatio_isInf hd).mp h
    simp only [not_returns_error, false_iff, not_lt]
    exact hlarge
  · rename_i h
    rw [Double.ofRatio_isInf hd, not_le] at h
    simp only [returns_ok, true_iff]
    exact h

theorem floatOfInt_isInf {n : ℤ} : (floatOfInt n).isInf = true ↔ Double.overflow ≤ n.natAbs := by
  have hratio := Double.ofRatio_isInf (n := n.natAbs) Nat.one_pos
  rw [Nat.mul_one] at hratio
  rw [← hratio]
  unfold floatOfInt
  split
  · by_cases hinf : (Double.ofRatio n.natAbs 1).isInf = true
    · simp [hinf, Double.isInf_neg hinf]
    · have hlt : ((n.natAbs : ℚ) / (1 : ℕ)) < Double.overflow := by
        rw [← not_le, Double.overflow_le_div Nat.one_pos, ← Double.ofRatio_isInf Nat.one_pos]
        exact hinf
      obtain ⟨v, hv, -⟩ := Double.ofRatio_holds Nat.one_pos hlt
      simp [hv.not_isInf, hv.neg_not_isInf]
  · rfl

/-! ### `datetime.fromtimestamp` -/

section Timestamps

open Double

theorem lt_overflow_of_lt {q : ℚ} {e : ℤ} (h : q < 2 ^ e) (he : e ≤ 1023) : q < overflow :=
  h.trans_le ((two_zpow_le he).trans le_overflow)

theorem floatOfInt_holds {n : ℕ} (hn : n < 2 ^ 64) : ∃ v, Holds (floatOfInt n) v ∧ Rounds n v := by
  have hlarge : (n : ℚ) < overflow :=
    lt_overflow_of_lt (e := 64) (by exact_mod_cast hn) (by norm_num)
  have hwhole : (n : ℚ) / (1 : ℕ) = n := by rw [Nat.cast_one, div_one]
  have hfloat : floatOfInt n = ofRatio n 1 := by
    rw [floatOfInt, if_neg (not_lt.mpr (Int.natCast_nonneg n)), Int.natAbs_natCast]
  have hfinite : (n : ℚ) / (1 : ℕ) < overflow := by
    rw [hwhole]
    exact hlarge
  obtain ⟨v, hv, hround⟩ := ofRatio_holds Nat.one_pos hfinite
  rw [hwhole] at hround
  rw [hfloat]
  exact ⟨v, hv, hround⟩

theorem million_canonical : Canonical (1000000 * 2 ^ 33) (-33) :=
  ⟨by norm_num, by norm_num, by norm_num, .inr (by norm_num)⟩

/-- The microseconds of what is behind the whole seconds. -/
theorem nearest_micros_le {x y : Float} {v f : ℚ} (hx : Holds x v) (hy : Holds y f) (hle : f ≤ v)
    {k l c : ℕ} {e d : ℤ} (hk : k < 2 ^ 53) (he : -1074 ≤ e) (hl : l < 2 ^ 53) (hd : -1074 ≤ d)
    (hdiff : v - f ≤ k * 2 ^ e) (hproduct : k * 2 ^ e * 1000000 ≤ (l : ℚ) * 2 ^ d)
    (hfinite : (l : ℚ) * 2 ^ d < overflow) (hc : (l : ℚ) * 2 ^ d ≤ c) :
    ∃ n : ℕ, nearest ((x - y) * 1000000) 1 = some (n : ℤ) ∧ n ≤ c := by
  obtain ⟨w, hw, hround⟩ := hx.sub hy hle
  have hwle := (hround k e hk he).1 hdiff
  have hmillion : ((1000000 * 2 ^ 33 : ℕ) : ℚ) * 2 ^ (-33 : ℤ) = 1000000 := by norm_num
  have hscaled : w * 1000000 ≤ l * 2 ^ d := le_trans (by linarith) hproduct
  obtain ⟨p, hp, hround'⟩ := hw.mul million_canonical (by norm_num)
    (rfl : (1000000 : Float).toModel.unpack = _) (by rw [hmillion]; exact hscaled.trans_lt hfinite)
  rw [hmillion] at hround'
  exact hp.nearest_le (((hround' l d hl hd).1 hscaled).trans hc)

theorem fromTimestamp_returns_iff {x : Float} {v : ℚ} (hx : Holds x v) {whole n : ℕ}
    (hwhole : truncate 0 0 0 x = whole)
    (hn : nearest ((x - floatOfInt whole) * 1000000) 1 = some (n : ℤ)) :
    Returns (fromTimestamp x) ↔ whole * 1000000 + n < 253402300800000000 := by
  have hword : (2 : Int) ^ 63 = 9223372036854775808 := by norm_num
  have hlow : firstDay * dayMicros = -62135596800000000 := by norm_num [firstDay, dayMicros]
  have hhigh : (lastDay + 1) * dayMicros = 253402300800000000 := by norm_num [lastDay, dayMicros]
  unfold fromTimestamp
  simp only [hx.not_isNaN, hx.not_isInf, Bool.false_eq_true, if_false, hwhole, hn, Option.getD_some]
  rw [hword]
  split
  · simp only [not_returns_error, false_iff]
    omega
  · split
    · simp only [not_returns_error, false_iff]
      omega
    · split
      · rename_i t ht
        have hrange := t.inRange
        have hmicros : t.micros = whole * 1000000 + n := by
          obtain ⟨_, heq⟩ := Option.dite_none_right_eq_some.mp ht
          cases heq
          rfl
        rw [hlow, hhigh, hmicros] at hrange
        simp only [returns_ok, true_iff]
        omega
      · rename_i hnone
        simp only [Utc.of?, dite_eq_right_iff, reduceCtorEq, imp_false, hlow, hhigh] at hnone
        simp only [not_returns_error, false_iff]
        omega

/-- The year 10000. -/
theorem fromTimestamp_returns {x : Float} {v : ℚ} (hx : Holds x v)
    (hv : v ≤ 253402300800 - 1 / 1024) : Returns (fromTimestamp x) := by
  obtain ⟨whole, htruncate, hlow, hhigh⟩ := hx.truncate 0 0 0
  have hwhole : whole < 253402300800 := by
    have : (whole : ℚ) < 253402300800 := by linarith
    exact_mod_cast this
  obtain ⟨f, hf, hround⟩ := floatOfInt_holds (n := whole) (by omega)
  have hfloor : f = whole := le_antisymm (hround.le_natCast (by omega) (le_refl _))
    (hround.natCast_le (by omega) (le_refl _))
  subst hfloor
  have hmicros : ∃ n : ℕ, nearest ((x - floatOfInt whole) * 1000000) 1 = some (n : ℤ) ∧
      whole * 1000000 + n < 253402300800000000 := by
    rcases Nat.lt_or_eq_of_le (Nat.le_of_lt_succ hwhole) with hlt | rfl
    · obtain ⟨n, hn, hle⟩ := nearest_micros_le hx hf hlow (k := 1) (e := 0) (l := 1000000) (d := 0)
        (c := 1000000) (by norm_num) (by norm_num) (by norm_num) (by norm_num) (by norm_num; linarith)
        (by norm_num) (lt_overflow_of_lt (e := 20) (by norm_num) (by norm_num)) (by norm_num)
      exact ⟨n, hn, by omega⟩
    · obtain ⟨n, hn, hle⟩ := nearest_micros_le hx hf hlow (k := 1023) (e := -10) (l := 999024)
        (d := 0) (c := 999024) (by norm_num) (by norm_num) (by norm_num) (by norm_num)
        (by norm_num at hv ⊢; linarith) (by norm_num)
        (lt_overflow_of_lt (e := 20) (by norm_num) (by norm_num)) (by norm_num)
      exact ⟨n, hn, by omega⟩
  obtain ⟨n, hn, hsum⟩ := hmicros
  exact (fromTimestamp_returns_iff hx htruncate hn).mpr hsum

theorem fromTimestamp_raises {x : Float} {v : ℚ} (hx : Holds x v) (hv : 253402300800 ≤ v) :
    ¬ Returns (fromTimestamp x) := by
  obtain ⟨whole, htruncate, hlow, hhigh⟩ := hx.truncate 0 0 0
  have hwhole : 253402300800 ≤ whole := by
    have : (253402300800 : ℚ) < whole + 1 := by linarith
    have : 253402300800 < whole + 1 := by exact_mod_cast this
    omega
  rcases Nat.lt_or_ge whole (2 ^ 63) with hsmall | hlarge
  · obtain ⟨f, hf, hround⟩ := floatOfInt_holds (n := whole) (by omega)
    have hv : v ≤ 2 ^ 63 := by
      have : (whole : ℚ) + 1 ≤ 2 ^ 63 := by exact_mod_cast hsmall
      linarith
    have hdiff : v - f ≤ (1 : ℕ) * 2 ^ (63 : ℤ) := by
      have := hf.nonneg
      norm_num at hv ⊢
      linarith
    obtain ⟨n, hn, -⟩ := nearest_micros_le hx hf (hx.rounds_le hround hlow) (l := 1) (d := 83)
      (c := 2 ^ 83) (by norm_num) (by norm_num) (by norm_num) (by norm_num) hdiff (by norm_num)
      (lt_overflow_of_lt (e := 84) (by norm_num) (by norm_num)) (by norm_num)
    rw [fromTimestamp_returns_iff hx htruncate hn]
    omega
  · have hraises : fromTimestamp x = .error .overflowError := by
      unfold fromTimestamp
      simp only [hx.not_isNaN, hx.not_isInf, Bool.false_eq_true, if_false, htruncate]
      rw [if_pos (.inr (by exact_mod_cast hlarge))]
    rw [hraises]
    exact not_returns_error _

theorem milliseconds_returns {n : ℕ} :
    Returns (trueDiv n 1000 >>= fromTimestamp) ↔ n < 253402300800000 := by
  rw [returns_bind]
  unfold trueDiv
  split
  · rename_i hinf
    have hlarge := (ofRatio_isInf (by norm_num)).mp hinf
    have hoverflow : 253402300800 ≤ overflow := by
      exact_mod_cast (lt_overflow_of_lt (q := 253402300800) (e := 64) (by norm_num) (by norm_num)).le
    have hmany := Nat.mul_le_mul_right 1000 hoverflow
    simp only [reduceCtorEq, false_and, exists_false, false_iff, not_lt]
    exact hmany.trans hlarge
  · rename_i hfinite
    simp only [Except.ok.injEq, exists_eq_left']
    have hq : (n / (1000 : ℕ) : ℚ) < overflow := by
      rw [← not_le, overflow_le_div (by norm_num), ← ofRatio_isInf (by norm_num)]
      exact hfinite
    obtain ⟨v, hv, hround⟩ := ofRatio_holds (by norm_num) hq
    constructor
    · intro hreturns
      by_contra hge
      refine fromTimestamp_raises hv ?_ hreturns
      have hq : ((253402300800 : ℕ) : ℚ) ≤ n / (1000 : ℕ) := by
        rw [le_div_iff₀ (by norm_num)]
        exact_mod_cast (by omega : 253402300800 * 1000 ≤ n)
      exact_mod_cast hround.natCast_le (by norm_num) hq
    · intro hlt
      refine fromTimestamp_returns hv ?_
      have hq : (n / (1000 : ℕ) : ℚ) ≤ (259483956019199 : ℕ) * 2 ^ (-10 : ℤ) := by
        rw [div_le_iff₀ (by norm_num)]
        have : (n : ℚ) ≤ 253402300799999 := by exact_mod_cast (by omega : n ≤ 253402300799999)
        norm_num
        linarith
      refine ((hround _ _ (by norm_num) (by norm_num)).1 hq).trans ?_
      norm_num

end Timestamps

end Lakehouse.Dashboard
