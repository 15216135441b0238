/-
When a computation that may fail succeeds.

Each lemma takes one shape of a computation in `Except` apart, so that a
success of the whole is the successes of its parts.
-/

import Mathlib.Data.List.Forall2
import Mathlib.Data.List.Perm.Basic

namespace Result

universe u v

variable {ε : Type u} {α β : Type v}

theorem bind_eq_ok {x : Except ε α} {f : α → Except ε β} {b : β} :
    x >>= f = .ok b ↔ ∃ a, x = .ok a ∧ f a = .ok b := by
  cases x with
  | error e =>
      constructor
      · intro h
        cases h
      · rintro ⟨a, ha, _⟩
        cases ha
  | ok a =>
      constructor
      · exact fun h => ⟨a, rfl, h⟩
      · rintro ⟨_, ha, hb⟩
        cases ha
        exact hb

theorem pure_eq_ok {a b : α} : (pure a : Except ε α) = .ok b ↔ a = b := by
  constructor
  · intro h
    cases h
    rfl
  · rintro rfl
    rfl

/-- A traversal succeeds when it does at every item. -/
theorem mapM_eq_ok {f : α → Except ε β} {xs : List α} {ys : List β} :
    xs.mapM f = .ok ys ↔ List.Forall₂ (fun x y => f x = .ok y) xs ys := by
  induction xs generalizing ys with
  | nil =>
      rw [List.mapM_nil, pure_eq_ok, List.forall₂_nil_left_iff]
      exact eq_comm
  | cons x xs ih =>
      simp only [List.mapM_cons, bind_eq_ok, pure_eq_ok, ih, List.forall₂_cons_left_iff]
      constructor
      · rintro ⟨y, hy, rest, hrest, rfl⟩
        exact ⟨y, rest, hy, hrest, rfl⟩
      · rintro ⟨y, rest, hy, hrest, rfl⟩
        exact ⟨y, hy, rest, hrest, rfl⟩

/-- A traversal in another order succeeds too, with its results in that order. -/
theorem mapM_perm {f : α → Except ε β} {xs xs' : List α} {ys : List β} (hperm : xs.Perm xs')
    (h : xs.mapM f = .ok ys) : ∃ ys', xs'.mapM f = .ok ys' ∧ ys.Perm ys' := by
  obtain ⟨ys', hys', hperm⟩ := List.perm_comp_forall₂ hperm.symm (mapM_eq_ok.mp h)
  exact ⟨ys', mapM_eq_ok.mpr hys', hperm.symm⟩

/-- Every error of a computation satisfies `P`. -/
def FailsOnly (P : ε → Prop) (x : Except ε α) : Prop := ∀ e, x = .error e → P e

theorem failsOnly_ok (P : ε → Prop) (a : α) : FailsOnly P (.ok a) := by
  intro e h
  cases h

theorem failsOnly_error {P : ε → Prop} {e : ε} (h : P e) : FailsOnly P (.error e : Except ε α) := by
  intro e' he
  cases he
  exact h

theorem failsOnly_bind {P : ε → Prop} {x : Except ε α} {f : α → Except ε β} (hx : FailsOnly P x)
    (hf : ∀ a, FailsOnly P (f a)) : FailsOnly P (x >>= f) := by
  cases x with
  | error e => exact failsOnly_error (hx e rfl)
  | ok a => exact hf a

theorem failsOnly_mapM {P : ε → Prop} {f : α → Except ε β} (hf : ∀ a, FailsOnly P (f a))
    (xs : List α) : FailsOnly P (xs.mapM f) := by
  induction xs with
  | nil => exact failsOnly_ok P []
  | cons x xs ih =>
      rw [List.mapM_cons]
      refine failsOnly_bind (hf x) fun y => failsOnly_bind ih fun ys => ?_
      exact failsOnly_ok P (y :: ys)

theorem exists_forall₂ {R : α → β → Prop} {xs : List α} (h : ∀ x ∈ xs, ∃ y, R x y) :
    ∃ ys, List.Forall₂ R xs ys := by
  induction xs with
  | nil => exact ⟨[], .nil⟩
  | cons x xs ih =>
      obtain ⟨y, hy⟩ := h x List.mem_cons_self
      obtain ⟨ys, hys⟩ := ih fun z hz => h z (List.mem_cons_of_mem x hz)
      exact ⟨y :: ys, .cons hy hys⟩

/-- A list related through a map is the map of a related list. -/
theorem forall₂_exists_map {γ : Type} {R : α → γ → Prop} {f : γ → β} {xs : List α} {ys : List β} :
    List.Forall₂ (fun x y => ∃ c, R x c ∧ y = f c) xs ys ↔
      ∃ cs, List.Forall₂ R xs cs ∧ ys = cs.map f := by
  constructor
  · intro h
    induction h with
    | nil => exact ⟨[], .nil, rfl⟩
    | cons hxy _ ih =>
        obtain ⟨c, hc, rfl⟩ := hxy
        obtain ⟨cs, hcs, rfl⟩ := ih
        exact ⟨c :: cs, .cons hc hcs, rfl⟩
  · rintro ⟨cs, hcs, rfl⟩
    rw [List.forall₂_map_right_iff]
    exact hcs.imp fun x c hc => ⟨c, hc, rfl⟩

theorem exists_of_mem_left {R : α → β → Prop} {xs : List α} {ys : List β} (h : List.Forall₂ R xs ys)
    {x : α} (hx : x ∈ xs) : ∃ y ∈ ys, R x y := by
  induction h with
  | nil => simp at hx
  | cons hxy _ ih =>
      rcases List.mem_cons.mp hx with rfl | hrest
      · exact ⟨_, List.mem_cons_self, hxy⟩
      · obtain ⟨y, hy, hr⟩ := ih hrest
        exact ⟨y, List.mem_cons_of_mem _ hy, hr⟩

end Result
