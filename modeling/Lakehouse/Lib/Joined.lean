/-
Fields joined with a separator.

Fields without the separator are found from the right (`flatMap_inj`), whatever stands
before them.
-/

import Mathlib.Data.List.Induction

namespace Joined

variable {α : Type*} {sep : α}

theorem intercalate_cons_eq (sep : α) (first : List α) (fields : List (List α)) :
    [sep].intercalate (first :: fields) = first ++ fields.flatMap (sep :: ·) := by
  induction fields generalizing first with
  | nil => simp [List.intercalate]
  | cons field fields ih =>
      rw [List.intercalate_cons_cons, ih field]
      simp

/-- A separator inside a field makes it two. -/
theorem intercalate_split (front : List (List α)) (a b : List α) (back : List (List α)) :
    [sep].intercalate (front ++ (a ++ sep :: b) :: back) =
      [sep].intercalate (front ++ a :: b :: back) := by
  cases front with
  | nil => simp [intercalate_cons_eq]
  | cons first front => simp [intercalate_cons_eq]

theorem eq_nil_of_cons_eq_append {cut field rest : List α} (h : sep ∉ field)
    (heq : sep :: field = cut ++ sep :: rest) : cut = [] := by
  cases cut with
  | nil => rfl
  | cons x cut =>
      have hfield : field = cut ++ sep :: rest := (List.cons.inj heq).2
      exact absurd (by simp [hfield]) h

/-- The last field, and what stands before it. -/
theorem append_cons_inj {front front' field field' : List α} (h : sep ∉ field) (h' : sep ∉ field')
    (heq : front ++ sep :: field = front' ++ sep :: field') : front = front' ∧ field = field' := by
  rcases List.append_eq_append_iff.mp heq with ⟨cut, rfl, hcut⟩ | ⟨cut, rfl, hcut⟩
  · have hnil := eq_nil_of_cons_eq_append h hcut
    subst hnil
    exact ⟨by simp, (List.cons.inj hcut).2⟩
  · have hnil := eq_nil_of_cons_eq_append h' hcut
    subst hnil
    exact ⟨by simp, (List.cons.inj hcut).2.symm⟩

/-- As many fields on both sides, each behind a separator. -/
theorem flatMap_inj {front front' : List α} {fields fields' : List (List α)}
    (h : ∀ field ∈ fields, sep ∉ field) (h' : ∀ field ∈ fields', sep ∉ field)
    (hlength : fields.length = fields'.length)
    (heq : front ++ fields.flatMap (sep :: ·) = front' ++ fields'.flatMap (sep :: ·)) :
    front = front' ∧ fields = fields' := by
  induction fields using List.reverseRecOn generalizing fields' with
  | nil =>
      have hnil : fields' = [] := List.length_eq_zero_iff.mp hlength.symm
      subst hnil
      exact ⟨by simpa using heq, rfl⟩
  | append_singleton fields field ih =>
      rcases List.eq_nil_or_concat fields' with rfl | ⟨before, last, rfl⟩
      · simp at hlength
      · simp only [List.concat_eq_append, List.flatMap_append, List.flatMap_singleton,
          ← List.append_assoc] at heq
        obtain ⟨hbefore, hlast⟩ := append_cons_inj (h field (by simp)) (h' last (by simp)) heq
        obtain ⟨hfront, hfields⟩ := ih (fun x hx => h x (by simp [hx]))
          (fun x hx => h' x (by simp [hx])) (by simpa using hlength) hbefore
        exact ⟨hfront, by simp [hfields, hlast]⟩

/-- No field of a split text holds the separator. -/
theorem not_mem_of_mem_splitOn [DecidableEq α] {text field : List α} (h : field ∈ text.splitOn sep) :
    sep ∉ field := by
  induction text generalizing field with
  | nil =>
      rw [List.splitOn_nil, List.mem_singleton] at h
      simp [h]
  | cons x text ih =>
      rw [List.splitOn_cons_eq_if_modifyHead] at h
      split at h
      · rcases List.mem_cons.mp h with rfl | hrest
        · exact List.not_mem_nil
        · exact ih hrest
      · rename_i hx
        cases hfields : text.splitOn sep with
        | nil => exact absurd hfields (List.splitOn_ne_nil sep text)
        | cons first fields =>
            rw [hfields, List.modifyHead_cons] at h
            rcases List.mem_cons.mp h with rfl | hrest
            · intro hmem
              rcases List.mem_cons.mp hmem with rfl | hfirst
              · exact hx (beq_self_eq_true _)
              · exact ih (hfields ▸ List.mem_cons_self) hfirst
            · exact ih (hfields ▸ List.mem_cons_of_mem _ hrest)

end Joined
