/-
JSON formats with fixed arrays and open objects.

A template says which array stands where, which member each object must have,
and which values are taken as they are. A document may have further members in
the objects the template names; inside a taken value nothing is left open.

* `json` — the document of a template, with no further member.
* `Fits` — a document is that of a template up to further members.
* `fits_json` — a document fits its own template.
-/

import Mathlib.Data.List.Forall2
import Lakehouse.Lib.Json

namespace Json

inductive Template where
  | value (j : Json)
  | items (parts : List Template)
  | member (name : String) (part : Template)

namespace Template

mutual
def json : Template → Json
  | .value j => j
  | .items parts => .arr (jsons parts)
  | .member name part => .obj [(name, json part)]

def jsons : List Template → List Json
  | [] => []
  | part :: parts => json part :: jsons parts
end

mutual
/-- `j` is the document of the template, further members of its objects ignored. -/
def Fits : Template → Json → Prop
  | .value v, j => j = v
  | .items parts, j => ∃ xs, j = .arr xs ∧ FitsAll parts xs
  | .member name part, j => ∃ d v, j = .obj d ∧ lookup name d = some v ∧ Fits part v

def FitsAll : List Template → List Json → Prop
  | [], xs => xs = []
  | part :: parts, xs => ∃ x rest, xs = x :: rest ∧ Fits part x ∧ FitsAll parts rest
end

theorem fitsAll_iff {parts : List Template} {xs : List Json} :
    FitsAll parts xs ↔ List.Forall₂ Fits parts xs := by
  induction parts generalizing xs with
  | nil => rw [FitsAll, List.forall₂_nil_left_iff]
  | cons part parts ih =>
      rw [FitsAll, List.forall₂_cons_left_iff]
      constructor
      · rintro ⟨x, rest, rfl, hx, hrest⟩
        exact ⟨x, rest, hx, ih.mp hrest, rfl⟩
      · rintro ⟨x, rest, hx, hrest, rfl⟩
        exact ⟨x, rest, rfl, hx, ih.mpr hrest⟩

/-- An array fits its parts one by one. -/
theorem fits_items {parts : List Template} {xs : List Json} :
    (items parts).Fits (.arr xs) ↔ List.Forall₂ Fits parts xs := by
  rw [Fits, ← fitsAll_iff]
  constructor
  · rintro ⟨_, hxs, hparts⟩
    cases hxs
    exact hparts
  · intro hparts
    exact ⟨xs, rfl, hparts⟩

/-- The parts of a list are its elements, each in one template. -/
theorem fits_items_map {α : Type} {f : α → Template} {as : List α} {xs : List Json} :
    (items (as.map f)).Fits (.arr xs) ↔ List.Forall₂ (fun x a => (f a).Fits x) xs as := by
  rw [fits_items, List.forall₂_map_left_iff]
  exact ⟨List.Forall₂.flip, List.Forall₂.flip⟩

theorem fits_value {v j : Json} : (value v).Fits j ↔ j = v := by
  rw [Fits]

theorem fits_member {name : String} {part : Template} {d : List (String × Json)} :
    (member name part).Fits (.obj d) ↔ ∃ v, lookup name d = some v ∧ part.Fits v := by
  rw [Fits]
  constructor
  · rintro ⟨_, v, hd, hv, hpart⟩
    cases hd
    exact ⟨v, hv, hpart⟩
  · rintro ⟨v, hv, hpart⟩
    exact ⟨d, v, rfl, hv, hpart⟩

theorem fits_member_obj {name : String} {part : Template} {j : Json}
    (h : (member name part).Fits j) : ∃ d, j = .obj d := by
  obtain ⟨d, _, hd, _⟩ := h
  exact ⟨d, hd⟩

/-- Read the member first, then what it holds. -/
theorem fits_member_iff {name : String} {part : Template} {j : Json} :
    (member name part).Fits j ↔ ∃ v, (member name (value v)).Fits j ∧ part.Fits v := by
  constructor
  · rintro ⟨d, v, rfl, hv, hpart⟩
    exact ⟨v, ⟨d, v, rfl, hv, rfl⟩, hpart⟩
  · rintro ⟨v, ⟨d, _, rfl, hv, rfl⟩, hpart⟩
    exact ⟨d, _, rfl, hv, hpart⟩

theorem fitsAll_member_iff {name : String} {part : Template} {before after : List Template}
    {xs : List Json} :
    FitsAll (before ++ member name part :: after) xs ↔
      ∃ v, FitsAll (before ++ member name (value v) :: after) xs ∧ part.Fits v := by
  induction before generalizing xs with
  | nil =>
      constructor
      · rintro ⟨x, rest, rfl, hx, hrest⟩
        obtain ⟨v, hv, hpart⟩ := fits_member_iff.mp hx
        exact ⟨v, ⟨x, rest, rfl, hv, hrest⟩, hpart⟩
      · rintro ⟨v, ⟨x, rest, rfl, hv, hrest⟩, hpart⟩
        exact ⟨x, rest, rfl, fits_member_iff.mpr ⟨v, hv, hpart⟩, hrest⟩
  | cons first before ih =>
      constructor
      · rintro ⟨x, rest, rfl, hx, hrest⟩
        obtain ⟨v, hv, hpart⟩ := ih.mp hrest
        exact ⟨v, ⟨x, rest, rfl, hx, hv⟩, hpart⟩
      · rintro ⟨v, ⟨x, rest, rfl, hx, hv⟩, hpart⟩
        exact ⟨x, rest, rfl, hx, ih.mpr ⟨v, hv, hpart⟩⟩

/-- Read the member of one item first, then what it holds. -/
theorem fits_items_member_iff {name : String} {part : Template} (before after : List Template)
    {xs : List Json} :
    (items (before ++ member name part :: after)).Fits (.arr xs) ↔
      ∃ v, (items (before ++ member name (value v) :: after)).Fits (.arr xs) ∧ part.Fits v := by
  simp only [fits_items, ← fitsAll_iff]
  exact fitsAll_member_iff

mutual
theorem fits_json : ∀ t : Template, t.Fits t.json
  | .value j => by rw [json, Fits]
  | .items parts => ⟨jsons parts, by rw [json], fitsAll_jsons parts⟩
  | .member name part =>
      ⟨[(name, json part)], json part, by rw [json], lookup_cons_self .., fits_json part⟩

theorem fitsAll_jsons : ∀ parts : List Template, FitsAll parts (jsons parts)
  | [] => rfl
  | part :: parts => ⟨json part, jsons parts, rfl, fits_json part, fitsAll_jsons parts⟩
end

end Template

end Json
