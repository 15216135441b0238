/-
The newest element of a list with time stamps.

A log is read in some order and sorted by time, where a stable sort keeps the
reading order of simultaneous elements. Which element ends up last can be said
without sorting: `Newest` is the last of those that no element is later than.

* `filter_insertionSort` — selecting and sorting commute.
* `getLast?_insertionSort` — the last of the sorted list is the newest.
* `insertionSort_eq_of_perm` — without simultaneous elements the reading order
  is of no account.
* `Newest.unique` — there is at most one.
-/

import Mathlib.Data.List.Sort
import Mathlib.Order.Defs.LinearOrder

namespace Recency

variable {α κ : Type*} [LinearOrder κ]

/-- No element is later than `x`, and none behind it is as late. -/
def Newest (key : α → κ) (l : List α) (x : α) : Prop :=
  ∃ before after, l = before ++ x :: after ∧ (∀ y ∈ before, key y ≤ key x) ∧
    ∀ y ∈ after, key y < key x

theorem Newest.mem {key : α → κ} {l : List α} {x : α} (h : Newest key l x) : x ∈ l := by
  obtain ⟨before, after, rfl, _, _⟩ := h
  simp

theorem not_newest_nil (key : α → κ) (x : α) : ¬ Newest key [] x := fun h => by
  simpa using h.mem

theorem newest_cons {key : α → κ} {a x : α} {l : List α} :
    Newest key (a :: l) x ↔ (Newest key l x ∧ key a ≤ key x) ∨ (x = a ∧ ∀ y ∈ l, key y < key a) := by
  constructor
  · rintro ⟨before, after, heq, hbefore, hafter⟩
    cases before with
    | nil =>
        obtain ⟨rfl, rfl⟩ := List.cons.inj heq
        exact .inr ⟨rfl, hafter⟩
    | cons b before =>
        obtain ⟨rfl, rfl⟩ := List.cons.inj heq
        exact .inl ⟨⟨before, after, rfl, fun y hy => hbefore y (List.mem_cons_of_mem _ hy), hafter⟩,
          hbefore a List.mem_cons_self⟩
  · rintro (⟨⟨before, after, rfl, hbefore, hafter⟩, hle⟩ | ⟨rfl, hall⟩)
    · refine ⟨a :: before, after, rfl, ?_, hafter⟩
      intro y hy
      rcases List.mem_cons.mp hy with rfl | hy
      · exact hle
      · exact hbefore y hy
    · exact ⟨[], l, rfl, by simp, hall⟩

section Sorting

variable {key : α → κ} {r : α → α → Prop} [DecidableRel r] (hr : ∀ a b, r a b ↔ key a ≤ key b)

include hr

theorem pairwise_insertionSort (l : List α) : (l.insertionSort r).Pairwise r := by
  have htotal : Std.Total r := ⟨fun a b => by
    rw [hr, hr]
    exact le_total _ _⟩
  have htrans : IsTrans α r := ⟨fun a b c hab hbc => by
    rw [hr] at *
    exact hab.trans hbc⟩
  exact List.pairwise_insertionSort r l

/-- Selecting from a sorted list into which an element is inserted. -/
theorem filter_orderedInsert (p : α → Bool) (a : α) {l : List α} (hl : l.Pairwise r) :
    (l.orderedInsert r a).filter p =
      if p a then (l.filter p).orderedInsert r a else l.filter p := by
  induction l with
  | nil => cases hpa : p a <;> simp [hpa]
  | cons b l ih =>
      obtain ⟨hb, hl⟩ := List.pairwise_cons.mp hl
      by_cases hab : r a b
      · rw [List.orderedInsert_cons_of_le r l hab, List.filter_cons]
        split
        · -- everything selected is behind `a` as well
          have hall : ∀ c ∈ (b :: l).filter p, r a c := by
            intro c hc
            rcases List.mem_cons.mp (List.mem_of_mem_filter hc) with rfl | hc
            · exact hab
            · rw [hr] at *
              exact hab.trans ((hr b c).mp (hb c hc))
          cases hsel : (b :: l).filter p with
          | nil => rfl
          | cons c rest =>
              rw [List.orderedInsert_cons_of_le r rest (hall c (hsel ▸ List.mem_cons_self))]
        · rfl
      · rw [List.orderedInsert_of_not_le r l hab, List.filter_cons, ih hl]
        by_cases hpa : p a <;> by_cases hpb : p b <;>
          simp [hpa, hpb, hab]

/-- Selecting and sorting commute. -/
theorem filter_insertionSort (p : α → Bool) (l : List α) :
    (l.insertionSort r).filter p = (l.filter p).insertionSort r := by
  induction l with
  | nil => rfl
  | cons a l ih =>
      rw [List.insertionSort_cons, filter_orderedInsert hr p a (pairwise_insertionSort hr l), ih,
        List.filter_cons]
      split <;> rfl

/-- The last of a sorted list into which an element is inserted. -/
theorem getLast?_orderedInsert (a : α) {l : List α} (hl : l.Pairwise r) :
    (l.orderedInsert r a).getLast? =
      match l.getLast? with
      | none => some a
      | some x => if key a ≤ key x then some x else some a := by
  induction l with
  | nil => rfl
  | cons b l ih =>
      obtain ⟨hb, hl⟩ := List.pairwise_cons.mp hl
      by_cases hab : r a b
      · obtain ⟨x, hx⟩ : ∃ x, (b :: l).getLast? = some x := ⟨_, List.getLast?_cons⟩
        have hax : key a ≤ key x := by
          rcases List.mem_cons.mp (List.mem_of_getLast? hx) with rfl | hmem
          · exact (hr _ _).mp hab
          · exact ((hr _ _).mp hab).trans ((hr _ _).mp (hb x hmem))
        rw [List.orderedInsert_cons_of_le r l hab, List.getLast?_cons_cons, hx]
        simp [hax]
      · have hba : ¬ key a ≤ key b := fun hle => hab ((hr a b).mpr hle)
        rw [List.orderedInsert_of_not_le r l hab, List.getLast?_cons, ih hl, List.getLast?_cons]
        cases l.getLast? with
        | none => simp [hba]
        | some x =>
            simp only [Option.getD_some]
            split <;> rfl

/-- The last of the sorted list is the newest. -/
theorem getLast?_insertionSort {l : List α} {x : α} :
    (l.insertionSort r).getLast? = some x ↔ Newest key l x := by
  induction l generalizing x with
  | nil => simp [not_newest_nil]
  | cons a l ih =>
      rw [List.insertionSort_cons, getLast?_orderedInsert hr a (pairwise_insertionSort hr l),
        newest_cons]
      cases hlast : (l.insertionSort r).getLast? with
      | none =>
          have hnil : l = [] := by
            have := List.getLast?_eq_none_iff.mp hlast
            simpa using congrArg List.length this
          subst hnil
          simp [not_newest_nil, eq_comm]
      | some newest =>
          have hnewest := ih.mp hlast
          have hbound : ∀ y ∈ l, key y ≤ key newest := by
            obtain ⟨before, after, rfl, hbefore, hafter⟩ := hnewest
            intro y hy
            rcases List.mem_append.mp hy with hy | hy
            · exact hbefore y hy
            · rcases List.mem_cons.mp hy with rfl | hy
              · exact le_rfl
              · exact (hafter y hy).le
          have hunique : Newest key l x ↔ newest = x := by
            rw [← ih, hlast, Option.some_inj]
          dsimp only
          split
          · rename_i hle
            rw [Option.some_inj, hunique]
            constructor
            · rintro rfl
              exact .inl ⟨rfl, hle⟩
            · rintro (⟨rfl, _⟩ | ⟨rfl, hall⟩)
              · rfl
              · exact absurd hle (not_le.mpr (hall newest hnewest.mem))
          · rename_i hlt
            rw [Option.some_inj, hunique]
            constructor
            · rintro rfl
              exact .inr ⟨rfl, fun y hy => (hbound y hy).trans_lt (not_le.mp hlt)⟩
            · rintro (⟨rfl, hle⟩ | ⟨rfl, _⟩)
              · exact absurd hle hlt
              · rfl

/-- Elements of different times sort the same way from any order. -/
theorem insertionSort_eq_of_perm {l l' : List α} (hperm : l.Perm l') (hnodup : (l.map key).Nodup) :
    l.insertionSort r = l'.insertionSort r := by
  refine List.Perm.eq_of_pairwise ?_ (pairwise_insertionSort hr l) (pairwise_insertionSort hr l') ?_
  · intro a b ha hb hab hba
    have hal := (List.perm_insertionSort r l).mem_iff.mp ha
    have hbl := hperm.mem_iff.mpr ((List.perm_insertionSort r l').mem_iff.mp hb)
    exact List.inj_on_of_nodup_map hnodup hal hbl (le_antisymm ((hr a b).mp hab) ((hr b a).mp hba))
  · exact (List.perm_insertionSort r l).trans
      (hperm.trans (List.perm_insertionSort r l').symm)

end Sorting

theorem Newest.unique {key : α → κ} {l : List α} {x y : α} (hx : Newest key l x)
    (hy : Newest key l y) : x = y := by
  have h : ∀ a b, key a ≤ key b ↔ key a ≤ key b := fun _ _ => Iff.rfl
  have hlast := (getLast?_insertionSort h).mpr hx
  rw [(getLast?_insertionSort h).mpr hy] at hlast
  exact (Option.some.inj hlast).symm

end Recency
