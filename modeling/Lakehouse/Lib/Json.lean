/-
JSON documents as values.

`Json` keeps the distinction every reader of this format draws between an
integer literal (an exact `Int`) and a literal with a fraction or an exponent
(a binary64 `Float`). Objects are association lists with the first binding of
a name in force; `setField` is the last-one-wins update readers apply to a
repeated name.

* `leaves` — the scalars of a document, in document order; `leavesAt` — with the
  way to each.
* `nesting` — how deep arrays and objects are nested.
* `names` — every member name that occurs in it, at any depth.
* `AllLeaves`/`AllLeavesAt`/`AllNames` — a predicate on all of them, with the simp
  lemmas that push it through arrays and objects.
-/

import Mathlib.Data.List.Basic

/-- A JSON value. -/
inductive Json where
  | null
  | bool (b : Bool)
  | int (n : Int)
  | float (x : Float)
  | str (s : String)
  | arr (items : List Json)
  | obj (fields : List (String × Json))

namespace Json

/-- The fields of an object; no other value has any. -/
def fields : Json → Option (List (String × Json))
  | .obj fs => some fs
  | _ => none

/-- The items of an array. -/
def items : Json → Option (List Json)
  | .arr xs => some xs
  | _ => none

/-- The first binding of `name`. -/
def lookup (name : String) : List (String × Json) → Option Json
  | [] => none
  | (key, value) :: rest => if key = name then some value else lookup name rest

/-- Bind `name` to `value`, in place when it is bound already. -/
def setField (name : String) (value : Json) : List (String × Json) → List (String × Json)
  | [] => [(name, value)]
  | (key, old) :: rest =>
      if key = name then (key, value) :: rest else (key, old) :: setField name value rest

/-- The member `name` of an object. -/
def get? (j : Json) (name : String) : Option Json :=
  match j with
  | .obj fs => lookup name fs
  | _ => none

@[simp] theorem lookup_cons_self (name : String) (value : Json) (rest : List (String × Json)) :
    lookup name ((name, value) :: rest) = some value := by
  simp [lookup]

theorem lookup_cons_ne {name key : String} (h : key ≠ name) (value : Json)
    (rest : List (String × Json)) : lookup name ((key, value) :: rest) = lookup name rest := by
  simp [lookup, h]

/-- A found member is one of the fields. -/
theorem mem_of_lookup {name : String} {value : Json} {fs : List (String × Json)}
    (h : lookup name fs = some value) : (name, value) ∈ fs := by
  induction fs with
  | nil => simp [lookup] at h
  | cons f rest ih =>
      obtain ⟨key, old⟩ := f
      simp only [lookup] at h
      split at h
      · rename_i hkey
        cases h
        exact hkey ▸ List.mem_cons_self
      · exact List.mem_cons_of_mem _ (ih h)

/-- A property that goes from the parts of a document to the whole holds of every
document. -/
@[elab_as_elim]
theorem induct {motive : Json → Prop} (null : motive .null) (bool : ∀ b, motive (.bool b))
    (int : ∀ n, motive (.int n)) (float : ∀ x, motive (.float x)) (str : ∀ s, motive (.str s))
    (arr : ∀ xs, (∀ x ∈ xs, motive x) → motive (.arr xs))
    (obj : ∀ fs : List (String × Json), (∀ f ∈ fs, motive f.2) → motive (.obj fs)) (j : Json) :
    motive j :=
  @Json.rec motive (fun xs => ∀ x ∈ xs, motive x) (fun fs => ∀ f ∈ fs, motive f.2)
    (fun f => motive f.2) null bool int float str arr obj
    (fun _ h => absurd h List.not_mem_nil) (fun _ _ hx hxs => List.forall_mem_cons.mpr ⟨hx, hxs⟩)
    (fun _ h => absurd h List.not_mem_nil) (fun _ _ hf hfs => List.forall_mem_cons.mpr ⟨hf, hfs⟩)
    (fun _ _ h => h) j

/-! ### Leaves and member names -/

mutual
/-- The scalars of a document. -/
def leaves : Json → List Json
  | .arr xs => leavesList xs
  | .obj fs => leavesFields fs
  | scalar => [scalar]

def leavesList : List Json → List Json
  | [] => []
  | x :: xs => leaves x ++ leavesList xs

def leavesFields : List (String × Json) → List Json
  | [] => []
  | (_, x) :: fs => leaves x ++ leavesFields fs
end

/-- A step from a value to one of its parts. -/
inductive Step where
  | member (name : String)
  | item
deriving DecidableEq

mutual
/-- The scalars of a document that is reached by `path`, each with the way to it. -/
def leavesAt (path : List Step) : Json → List (List Step × Json)
  | .arr xs => leavesAtList path xs
  | .obj fs => leavesAtFields path fs
  | scalar => [(path, scalar)]

def leavesAtList (path : List Step) : List Json → List (List Step × Json)
  | [] => []
  | x :: xs => leavesAt (path ++ [.item]) x ++ leavesAtList path xs

def leavesAtFields (path : List Step) : List (String × Json) → List (List Step × Json)
  | [] => []
  | (name, x) :: fs => leavesAt (path ++ [.member name]) x ++ leavesAtFields path fs
end

mutual
/-- The member names of a document, at every depth. -/
def names : Json → List String
  | .arr xs => namesList xs
  | .obj fs => namesFields fs
  | _ => []

def namesList : List Json → List String
  | [] => []
  | x :: xs => names x ++ namesList xs

def namesFields : List (String × Json) → List String
  | [] => []
  | (key, x) :: fs => key :: names x ++ namesFields fs
end

mutual
/-- How deep arrays and objects are nested. -/
def nesting : Json → Nat
  | .arr xs => nestingList xs + 1
  | .obj fs => nestingFields fs + 1
  | _ => 0

def nestingList : List Json → Nat
  | [] => 0
  | x :: xs => max (nesting x) (nestingList xs)

def nestingFields : List (String × Json) → Nat
  | [] => 0
  | (_, x) :: fs => max (nesting x) (nestingFields fs)
end

theorem nestingList_le {xs : List Json} {depth : Nat} :
    nestingList xs ≤ depth ↔ ∀ x ∈ xs, nesting x ≤ depth := by
  induction xs with
  | nil => simp [nestingList]
  | cons x xs ih => rw [nestingList, Nat.max_le, ih, List.forall_mem_cons]

theorem nestingFields_le {fs : List (String × Json)} {depth : Nat} :
    nestingFields fs ≤ depth ↔ ∀ f ∈ fs, nesting f.2 ≤ depth := by
  induction fs with
  | nil => simp [nestingFields]
  | cons f fs ih => rw [nestingFields, Nat.max_le, ih, List.forall_mem_cons]

/-- `P` holds of every scalar of the document. -/
def AllLeaves (P : Json → Prop) (j : Json) : Prop := ∀ x ∈ leaves j, P x

/-- `P` holds of every scalar of the document, at its place. -/
def AllLeavesAt (P : List Step → Json → Prop) (path : List Step) (j : Json) : Prop :=
  ∀ leaf ∈ leavesAt path j, P leaf.1 leaf.2

/-- `P` holds of every member name of the document. -/
def AllNames (P : String → Prop) (j : Json) : Prop := ∀ name ∈ names j, P name

section All

variable {P : Json → Prop} {Q : String → Prop}

theorem forall_leavesList {xs : List Json} :
    (∀ x ∈ leavesList xs, P x) ↔ ∀ j ∈ xs, AllLeaves P j := by
  induction xs with
  | nil => simp [leavesList]
  | cons x xs ih =>
      simp only [leavesList, List.mem_append, or_imp, forall_and, ih, List.mem_cons, forall_eq,
        AllLeaves]

theorem forall_leavesFields {fs : List (String × Json)} :
    (∀ x ∈ leavesFields fs, P x) ↔ ∀ f ∈ fs, AllLeaves P f.2 := by
  induction fs with
  | nil => simp [leavesFields]
  | cons f fs ih =>
      simp only [leavesFields, List.mem_append, or_imp, forall_and, ih, List.mem_cons, forall_eq,
        AllLeaves]

@[simp] theorem allLeaves_arr {xs : List Json} :
    AllLeaves P (.arr xs) ↔ ∀ j ∈ xs, AllLeaves P j :=
  forall_leavesList

@[simp] theorem allLeaves_obj {fs : List (String × Json)} :
    AllLeaves P (.obj fs) ↔ ∀ f ∈ fs, AllLeaves P f.2 :=
  forall_leavesFields

@[simp] theorem allLeaves_null : AllLeaves P .null ↔ P .null := by simp [AllLeaves, leaves]

@[simp] theorem allLeaves_bool {b : Bool} : AllLeaves P (.bool b) ↔ P (.bool b) := by
  simp [AllLeaves, leaves]

@[simp] theorem allLeaves_int {n : Int} : AllLeaves P (.int n) ↔ P (.int n) := by
  simp [AllLeaves, leaves]

@[simp] theorem allLeaves_float {x : Float} : AllLeaves P (.float x) ↔ P (.float x) := by
  simp [AllLeaves, leaves]

@[simp] theorem allLeaves_str {s : String} : AllLeaves P (.str s) ↔ P (.str s) := by
  simp [AllLeaves, leaves]

section At

variable {P : List Step → Json → Prop} {path : List Step}

@[simp] theorem allLeavesAt_arr {xs : List Json} :
    AllLeavesAt P path (.arr xs) ↔ ∀ j ∈ xs, AllLeavesAt P (path ++ [.item]) j := by
  rw [AllLeavesAt, leavesAt]
  induction xs with
  | nil => simp [leavesAtList]
  | cons x xs ih =>
      rw [leavesAtList, List.forall_mem_append, ih, List.forall_mem_cons, AllLeavesAt]

@[simp] theorem allLeavesAt_obj {fs : List (String × Json)} :
    AllLeavesAt P path (.obj fs) ↔
      ∀ f ∈ fs, AllLeavesAt P (path ++ [.member f.1]) f.2 := by
  rw [AllLeavesAt, leavesAt]
  induction fs with
  | nil => simp [leavesAtFields]
  | cons f fs ih =>
      rw [leavesAtFields, List.forall_mem_append, ih, List.forall_mem_cons, AllLeavesAt]

@[simp] theorem allLeavesAt_null : AllLeavesAt P path .null ↔ P path .null := by
  simp [AllLeavesAt, leavesAt]

@[simp] theorem allLeavesAt_bool {b : Bool} : AllLeavesAt P path (.bool b) ↔ P path (.bool b) := by
  simp [AllLeavesAt, leavesAt]

@[simp] theorem allLeavesAt_int {n : Int} : AllLeavesAt P path (.int n) ↔ P path (.int n) := by
  simp [AllLeavesAt, leavesAt]

@[simp] theorem allLeavesAt_float {x : Float} :
    AllLeavesAt P path (.float x) ↔ P path (.float x) := by
  simp [AllLeavesAt, leavesAt]

@[simp] theorem allLeavesAt_str {s : String} : AllLeavesAt P path (.str s) ↔ P path (.str s) := by
  simp [AllLeavesAt, leavesAt]

/-- A predicate that is the same at every place below. -/
theorem allLeavesAt_iff {Q : Json → Prop} {j : Json}
    (h : ∀ below leaf, P (path ++ below) leaf ↔ Q leaf) :
    AllLeavesAt P path j ↔ AllLeaves Q j := by
  induction j using induct generalizing path with
  | arr xs ih =>
      rw [allLeavesAt_arr, allLeaves_arr]
      exact forall₂_congr fun x hx => ih x hx fun below leaf => by
        rw [List.append_assoc]
        exact h _ leaf
  | obj fs ih =>
      rw [allLeavesAt_obj, allLeaves_obj]
      exact forall₂_congr fun f hf => ih f hf fun below leaf => by
        rw [List.append_assoc]
        exact h _ leaf
  | _ =>
      have hhere := fun leaf => List.append_nil path ▸ h [] leaf
      simp [hhere]

end At

theorem forall_namesList {xs : List Json} :
    (∀ name ∈ namesList xs, Q name) ↔ ∀ j ∈ xs, AllNames Q j := by
  induction xs with
  | nil => simp [namesList]
  | cons x xs ih =>
      simp only [namesList, List.mem_append, or_imp, forall_and, ih, List.mem_cons, forall_eq,
        AllNames]

theorem forall_namesFields {fs : List (String × Json)} :
    (∀ name ∈ namesFields fs, Q name) ↔ ∀ f ∈ fs, Q f.1 ∧ AllNames Q f.2 := by
  induction fs with
  | nil => simp [namesFields]
  | cons f fs ih =>
      simp only [namesFields, List.cons_append, List.mem_cons, List.mem_append, or_imp, forall_and,
        forall_eq, ih, AllNames]
      tauto

@[simp] theorem allNames_arr {xs : List Json} :
    AllNames Q (.arr xs) ↔ ∀ j ∈ xs, AllNames Q j :=
  forall_namesList

@[simp] theorem allNames_obj {fs : List (String × Json)} :
    AllNames Q (.obj fs) ↔ ∀ f ∈ fs, Q f.1 ∧ AllNames Q f.2 :=
  forall_namesFields

@[simp] theorem allNames_null : AllNames Q .null := by simp [AllNames, names]

@[simp] theorem allNames_bool {b : Bool} : AllNames Q (.bool b) := by simp [AllNames, names]

@[simp] theorem allNames_int {n : Int} : AllNames Q (.int n) := by simp [AllNames, names]

@[simp] theorem allNames_float {x : Float} : AllNames Q (.float x) := by simp [AllNames, names]

@[simp] theorem allNames_str {s : String} : AllNames Q (.str s) := by simp [AllNames, names]

end All

end Json
