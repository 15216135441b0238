/-
Member names.

A reader never makes an object that has a name twice, and then a lookup does not
depend on the order of the members.

* `Json.Distinct` — no object of the document has a name twice.
* `JsonReader.distinct_of_whole` — this holds of whatever is read.
* `Json.sortKeys` — the members of every object in the order of their names;
  `lookup_sortMembers` is that no lookup tells the difference.
-/

import Mathlib.Data.List.Sort
import Lakehouse.Lib.JsonReader

namespace Json

mutual
/-- No object of the document has a name twice. -/
def Distinct : Json → Prop
  | .arr xs => DistinctItems xs
  | .obj fs => (fs.map Prod.fst).Nodup ∧ DistinctMembers fs
  | _ => True

def DistinctItems : List Json → Prop
  | [] => True
  | x :: xs => Distinct x ∧ DistinctItems xs

def DistinctMembers : List (String × Json) → Prop
  | [] => True
  | (_, x) :: fs => Distinct x ∧ DistinctMembers fs
end

theorem distinctItems_iff {xs : List Json} : DistinctItems xs ↔ ∀ x ∈ xs, Distinct x := by
  induction xs with
  | nil => simp [DistinctItems]
  | cons x xs ih => rw [DistinctItems, ih, List.forall_mem_cons]

theorem distinctMembers_iff {fs : List (String × Json)} :
    DistinctMembers fs ↔ ∀ f ∈ fs, Distinct f.2 := by
  induction fs with
  | nil => simp [DistinctMembers]
  | cons f fs ih => rw [DistinctMembers, ih, List.forall_mem_cons]

/-! ### Sorted members -/

/-- The names of two members are in order. -/
def NameLe (f g : String × Json) : Prop := ¬ g.1 < f.1

instance : DecidableRel NameLe := fun f g => inferInstanceAs (Decidable (¬ g.1 < f.1))

mutual
/-- Every object with its members in the order of their names. -/
def sortKeys : Json → Json
  | .null => .null
  | .bool b => .bool b
  | .int n => .int n
  | .float x => .float x
  | .str s => .str s
  | .arr xs => .arr (sortItems xs)
  | .obj fs => .obj ((sortMembers fs).insertionSort NameLe)

def sortItems : List Json → List Json
  | [] => []
  | x :: xs => sortKeys x :: sortItems xs

def sortMembers : List (String × Json) → List (String × Json)
  | [] => []
  | (name, x) :: fs => (name, sortKeys x) :: sortMembers fs
end

theorem sortItems_eq (xs : List Json) : sortItems xs = xs.map sortKeys := by
  induction xs with
  | nil => rfl
  | cons x xs ih => rw [sortItems, ih, List.map_cons]

theorem sortMembers_eq (fs : List (String × Json)) :
    sortMembers fs = fs.map fun f => (f.1, sortKeys f.2) := by
  induction fs with
  | nil => rfl
  | cons f fs ih => rw [sortMembers, ih, List.map_cons]

theorem perm_sortMembers (fs : List (String × Json)) :
    ((sortMembers fs).insertionSort NameLe).Perm (fs.map fun f => (f.1, sortKeys f.2)) :=
  sortMembers_eq fs ▸ List.perm_insertionSort NameLe _

theorem forall_sortMembers {P : String × Json → Prop} {fs : List (String × Json)} :
    (∀ g ∈ (sortMembers fs).insertionSort NameLe, P g) ↔ ∀ f ∈ fs, P (f.1, sortKeys f.2) := by
  simp only [(perm_sortMembers fs).mem_iff, List.forall_mem_map]

theorem allLeaves_sortKeys {P : Json → Prop} (j : Json) :
    AllLeaves P (sortKeys j) ↔ AllLeaves P j := by
  induction j using induct with
  | arr xs ih =>
      rw [sortKeys, sortItems_eq, allLeaves_arr, allLeaves_arr, List.forall_mem_map]
      exact forall₂_congr ih
  | obj fs ih =>
      rw [sortKeys, allLeaves_obj, allLeaves_obj, forall_sortMembers]
      exact forall₂_congr ih
  | _ => rw [sortKeys]

theorem distinct_sortKeys {j : Json} (h : Distinct j) : Distinct (sortKeys j) := by
  induction j using induct with
  | arr xs ih =>
      rw [Distinct, distinctItems_iff] at h
      rw [sortKeys, sortItems_eq, Distinct, distinctItems_iff, List.forall_mem_map]
      exact fun x hx => ih x hx (h x hx)
  | obj fs ih =>
      rw [Distinct, distinctMembers_iff] at h
      rw [sortKeys, Distinct, distinctMembers_iff, forall_sortMembers]
      refine ⟨?_, fun f hf => ih f hf (h.2 f hf)⟩
      rw [((perm_sortMembers fs).map Prod.fst).nodup_iff, List.map_map]
      exact h.1
  | _ =>
      rw [sortKeys]
      exact h

theorem nesting_sortKeys_le {j : Json} {depth : Nat} :
    nesting (sortKeys j) ≤ depth ↔ nesting j ≤ depth := by
  induction j using induct generalizing depth with
  | arr xs ih =>
      cases depth with
      | zero => simp [sortKeys, nesting]
      | succ depth =>
          rw [sortKeys, sortItems_eq, nesting, nesting, Nat.add_le_add_iff_right,
            Nat.add_le_add_iff_right, nestingList_le, nestingList_le, List.forall_mem_map]
          exact forall₂_congr fun x hx => ih x hx
  | obj fs ih =>
      cases depth with
      | zero => simp [sortKeys, nesting]
      | succ depth =>
          rw [sortKeys, nesting, nesting, Nat.add_le_add_iff_right,
            Nat.add_le_add_iff_right, nestingFields_le, nestingFields_le, forall_sortMembers]
          exact forall₂_congr fun f hf => ih f hf
  | _ => rw [sortKeys]

theorem lookup_eq_some {name : String} {j : Json} {fs : List (String × Json)}
    (h : (fs.map Prod.fst).Nodup) : lookup name fs = some j ↔ (name, j) ∈ fs := by
  refine ⟨mem_of_lookup, ?_⟩
  intro hmem
  induction fs with
  | nil => cases hmem
  | cons f fs ih =>
      rw [List.map_cons, List.nodup_cons] at h
      rcases List.mem_cons.mp hmem with rfl | hmem
      · exact lookup_cons_self name j fs
      · have hne : f.1 ≠ name := fun heq =>
          h.1 (heq ▸ List.mem_map.mpr ⟨(name, j), hmem, rfl⟩)
        rw [lookup_cons_ne hne]
        exact ih h.2 hmem

/-- The first binding is in force. -/
theorem lookup_append (name : String) (fs gs : List (String × Json)) :
    lookup name (fs ++ gs) = (lookup name fs).or (lookup name gs) := by
  induction fs with
  | nil => rfl
  | cons f fs ih =>
      obtain ⟨key, value⟩ := f
      simp only [List.cons_append, lookup]
      split
      · rfl
      · exact ih

/-- Sorting changes no lookup. -/
theorem lookup_sortMembers {fs : List (String × Json)} (h : (fs.map Prod.fst).Nodup) (name : String) :
    lookup name ((sortMembers fs).insertionSort NameLe) =
      (lookup name fs).map sortKeys := by
  have hnodup : (((sortMembers fs).insertionSort NameLe).map Prod.fst).Nodup := by
    rw [((perm_sortMembers fs).map Prod.fst).nodup_iff, List.map_map]
    exact h
  apply Option.ext
  intro j
  rw [lookup_eq_some hnodup, (perm_sortMembers fs).mem_iff, List.mem_map, Option.map_eq_some_iff]
  constructor
  · rintro ⟨f, hf, heq⟩
    cases heq
    exact ⟨f.2, (lookup_eq_some h).mpr hf, rfl⟩
  · rintro ⟨x, hx, rfl⟩
    exact ⟨(name, x), (lookup_eq_some h).mp hx, rfl⟩

end Json

namespace JsonReader

variable {d : Dialect}

/-- Read on, after a token. -/
def resume (d : Dialect) (outcome : Outcome) (rest : List Token) : Except Fault (Json × List Token) :=
  match outcome with
  | .more next => read d next rest
  | .complete j => .ok (j, rest)
  | .error f => .error f

theorem read_cons (p : Partial) (t : Token) (rest : List Token) :
    read d p (t :: rest) = resume d (step d p t) rest := by
  rw [JsonReader.read]
  cases step d p t <;> rfl

def Token.Clean (t : Token) : Prop := ∀ j, t = .scalar j → Json.Distinct j

def Frame.Clean : Frame → Prop
  | .arr done => ∀ x ∈ done, Json.Distinct x
  | .obj done _ => (done.map Prod.fst).Nodup ∧ ∀ f ∈ done, Json.Distinct f.2

def Outcome.Clean : Outcome → Prop
  | .more p => ∀ frame ∈ p.stack, Frame.Clean frame
  | .complete j => Json.Distinct j
  | .error _ => True

theorem unsigned_distinct {negative : Bool} {cs : List Char} {j : Json}
    (h : unsigned d negative cs = .ok j) : Json.Distinct j := by
  unfold unsigned at h
  dsimp only at h
  split at h
  · cases h
  · split at h
    · cases h
    · split at h
      · cases h
      · split at h
        · cases h
          trivial
        · cases h
      · split at h
        · cases h
          trivial
        · cases h

theorem atom_distinct {cs : List Char} {j : Json} (h : atom d cs = .ok j) : Json.Distinct j := by
  unfold atom at h
  split at h
  · cases h
    trivial
  split at h
  · cases h
    trivial
  split at h
  · cases h
    trivial
  split at h
  · cases h
    trivial
  split at h
  · cases h
    trivial
  split at h
  · cases h
    trivial
  split at h
  · exact unsigned_distinct h
  · exact unsigned_distinct h

theorem atomToken_clean (chars : List Char) : Token.Clean (atomToken d chars) := by
  intro j h
  exact atom_distinct (atom_of_atomToken h)

theorem start_clean {c : Char} {ts : List Token} {next : Lex} (h : start c = some (ts, next)) :
    ∀ t ∈ ts, Token.Clean t := by
  intro t ht j hj
  subst hj
  unfold start at h
  split at h
  · cases h
    cases ht
  split at h
  · cases h
    cases ht
  split at h <;> cases h <;> simp at ht

theorem lex_clean (text : List Char) (state : Lex) : ∀ t ∈ lex d state text, Token.Clean t := by
  have hinvalid : ∀ f, Token.Clean (.invalid f) := by
    rintro f j ⟨⟩
  induction text generalizing state with
  | nil =>
      intro t ht
      cases state with
      | blank => cases ht
      | atom chars =>
          rw [lex, List.mem_singleton] at ht
          exact ht ▸ atomToken_clean chars
      | string text =>
          rw [lex, List.mem_singleton] at ht
          · exact ht ▸ hinvalid _
          · simp
          · simp
      | escape text =>
          rw [lex, List.mem_singleton] at ht
          · exact ht ▸ hinvalid _
          · simp
          · simp
      | unit text missing bits =>
          rw [lex, List.mem_singleton] at ht
          · exact ht ▸ hinvalid _
          · simp
          · simp
  | cons c text ih =>
      intro t ht
      cases state with
      | blank =>
          rw [lex] at ht
          split at ht
          · rename_i hstart
            rcases List.mem_append.mp ht with ht | ht
            · exact start_clean hstart t ht
            · exact ih _ t ht
          · exact List.mem_singleton.mp ht ▸ hinvalid _
      | atom chars =>
          rw [lex] at ht
          split at ht
          · exact ih _ t ht
          · split at ht
            · rename_i hstart
              rcases List.mem_cons.mp ht with rfl | ht
              · exact atomToken_clean chars
              · rcases List.mem_append.mp ht with ht | ht
                · exact start_clean hstart t ht
                · exact ih _ t ht
            · rcases List.mem_cons.mp ht with rfl | ht
              · exact atomToken_clean chars
              · exact List.mem_singleton.mp ht ▸ hinvalid _
      | string text =>
          rw [lex] at ht
          split at ht
          · rcases List.mem_cons.mp ht with rfl | ht
            · rintro j ⟨⟩
              trivial
            · exact ih _ t ht
          · split at ht
            · exact ih _ t ht
            · split at ht
              · exact List.mem_singleton.mp ht ▸ hinvalid _
              · exact ih _ t ht
      | escape text =>
          rw [lex] at ht
          split at ht
          · exact ih _ t ht
          · split at ht
            · exact ih _ t ht
            · exact List.mem_singleton.mp ht ▸ hinvalid _
      | unit text missing bits =>
          rw [lex] at ht
          split at ht
          · split at ht
            · exact ih _ t ht
            · exact ih _ t ht
          · exact List.mem_singleton.mp ht ▸ hinvalid _

theorem mem_setField {name : String} {j : Json} {fs : List (String × Json)} {f : String × Json}
    (h : f ∈ Json.setField name j fs) : f = (name, j) ∨ f ∈ fs := by
  induction fs with
  | nil => exact .inl (List.mem_singleton.mp h)
  | cons g fs ih =>
      rw [Json.setField] at h
      split at h
      · rename_i hname
        rcases List.mem_cons.mp h with rfl | h
        · exact .inl (by rw [hname])
        · exact .inr (.tail _ h)
      · rcases List.mem_cons.mp h with rfl | h
        · exact .inr List.mem_cons_self
        · exact (ih h).imp_right (.tail _)

theorem nodup_setField {name : String} {j : Json} {fs : List (String × Json)}
    (h : (fs.map Prod.fst).Nodup) : ((Json.setField name j fs).map Prod.fst).Nodup := by
  induction fs with
  | nil => exact List.nodup_singleton name
  | cons g fs ih =>
      rw [List.map_cons, List.nodup_cons] at h
      rw [Json.setField]
      split
      · exact List.nodup_cons.mpr h
      · rename_i hne
        refine List.nodup_cons.mpr ⟨?_, ih h.2⟩
        intro hmem
        obtain ⟨f, hf, hname⟩ := List.mem_map.mp hmem
        rcases mem_setField hf with rfl | hf
        · exact hne hname.symm
        · exact h.1 (hname ▸ List.mem_map_of_mem hf)

theorem close_clean {stack : List Frame} {j : Json} (hstack : ∀ frame ∈ stack, Frame.Clean frame)
    (hj : Json.Distinct j) : Outcome.Clean (close stack j) := by
  cases stack with
  | nil => exact hj
  | cons frame stack =>
      obtain ⟨hframe, hothers⟩ := List.forall_mem_cons.mp hstack
      cases frame with
      | arr done => exact List.forall_mem_cons.mpr ⟨List.forall_mem_cons.mpr ⟨hj, hframe⟩, hothers⟩
      | obj done name =>
          refine List.forall_mem_cons.mpr ⟨⟨nodup_setField hframe.1, ?_⟩, hothers⟩
          intro f hf
          rcases mem_setField hf with rfl | hf
          · exact hj
          · exact hframe.2 f hf

theorem openFrame_clean {p : Partial} (hp : ∀ frame ∈ p.stack, Frame.Clean frame) {frame : Frame}
    (hframe : Frame.Clean frame) (expect : Expect) :
    Outcome.Clean (openFrame d p frame expect) := by
  unfold openFrame
  split
  · split
    · exact List.forall_mem_cons.mpr ⟨hframe, hp⟩
    · trivial
  · trivial

/-- A member's name leaves the container as it is. -/
theorem name_clean {stack : List Frame} (hstack : ∀ frame ∈ stack, Frame.Clean frame) (j : Json) :
    Outcome.Clean (step d ⟨stack, .name⟩ (.scalar j)) := by
  unfold step
  dsimp only
  split
  · obtain ⟨hframe, hothers⟩ := List.forall_mem_cons.mp hstack
    split
    · exact List.forall_mem_cons.mpr ⟨hframe, hothers⟩
    · trivial
  · trivial

theorem step_clean {p : Partial} (hp : ∀ frame ∈ p.stack, Frame.Clean frame) {t : Token}
    (ht : Token.Clean t) : Outcome.Clean (step d p t) := by
  obtain ⟨stack, expect⟩ := p
  cases t with
  | openArr =>
      have hempty : Frame.Clean (.arr []) := fun _ h => absurd h List.not_mem_nil
      exact openFrame_clean hp hempty _
  | openObj =>
      have hempty : Frame.Clean (.obj [] "") := ⟨List.nodup_nil, fun _ h => absurd h List.not_mem_nil⟩
      exact openFrame_clean hp hempty _
  | closeArr =>
      rw [step]
      split
      · rename_i done rest hstack
        cases hstack
        obtain ⟨hframe, hothers⟩ := List.forall_mem_cons.mp hp
        split
        · refine close_clean hothers ?_
          rw [Json.Distinct, Json.distinctItems_iff]
          exact fun x hx => hframe x (List.mem_reverse.mp hx)
        · trivial
      · trivial
  | closeObj =>
      rw [step]
      split
      · rename_i done name rest hstack
        cases hstack
        obtain ⟨hframe, hothers⟩ := List.forall_mem_cons.mp hp
        split
        · refine close_clean hothers ?_
          rw [Json.Distinct, Json.distinctMembers_iff]
          exact hframe
        · trivial
      · trivial
  | comma =>
      rw [step]
      split
      · split
        · exact hp
        · exact hp
        · trivial
      · trivial
  | colon =>
      rw [step]
      split
      · exact hp
      · trivial
  | scalar j =>
      have hj := ht j rfl
      cases expect with
      | value => exact close_clean hp hj
      | valueOrClose => exact close_clean hp hj
      | nameOrClose => exact name_clean hp j
      | name => exact name_clean hp j
      | colon => trivial
      | commaOrClose => trivial
  | invalid f =>
      rw [step]
      split <;> trivial

theorem read_distinct {ts : List Token} (hts : ∀ t ∈ ts, Token.Clean t) {p : Partial}
    (hp : ∀ frame ∈ p.stack, Frame.Clean frame) {j : Json} {rest : List Token}
    (h : read d p ts = .ok (j, rest)) : Json.Distinct j := by
  induction ts generalizing p with
  | nil => cases h
  | cons t ts ih =>
      obtain ⟨ht, hothers⟩ := List.forall_mem_cons.mp hts
      have hclean := step_clean (d := d) hp ht
      rw [read_cons] at h
      cases hstep : step d p t with
      | more next =>
          rw [hstep] at h hclean
          exact ih hothers hclean h
      | complete k =>
          rw [hstep] at h hclean
          cases h
          exact hclean
      | error f =>
          rw [hstep] at h
          cases h

/-- No object of a value that is read has a name twice. -/
theorem distinct_of_whole {text : List Char} {j : Json} (h : whole d text = .ok j) : Json.Distinct j := by
  unfold whole at h
  split at h
  · rename_i hread
    cases h
    exact read_distinct (lex_clean text .blank) (fun _ h => absurd h List.not_mem_nil) hread
  · cases h
  · cases h

end JsonReader
