/-
Publishing the document.

`main` of the exporter writes `json.dumps(snapshot, indent=2, sort_keys=True)`, and
the page reads the file with `JSON.parse`. Python also writes numbers that are no
JSON, and one field of the document is shown as it is found.

* `dumps_returns` — which values `json.dumps` writes.
* `Snapshot.tidy_iff` — the figures of a document are finite numbers; the bar time
  can be anything.
* `published_read_iff` — when the page can read the file, and what it reads.
-/

import Lakehouse.Lib.JsonWriter
import Lakehouse.Lib.DecimalPlaces
import Lakehouse.Dashboard.PublicSafe
import Lakehouse.Dashboard.Returns

namespace Lakehouse.Dashboard

open JsonReader JsonWriter

/-! ### `json.dumps` -/

/-- `floatstr`. -/
def Python.floatText (py : Python) (x : Float) : List Char :=
  if x.isNaN then "NaN".toList
  else if x.isInf then (if x < 0 then "-Infinity" else "Infinity").toList
  else (py.floatRepr x).toList

/-- `indent=2`, and whatever is not printable ASCII as `\u` with lower-case digits. -/
def Python.style (py : Python) : Style where
  ascii := true
  digit := Nat.digitChar
  digit_read := digitChar_read
  gap depth := '\n' :: List.replicate (2 * depth) ' '
  gap_blank := by
    intro depth c hc
    rcases List.mem_cons.mp hc with rfl | hc
    · rfl
    · rw [List.eq_of_mem_replicate hc]
      rfl
  afterComma := []
  afterComma_blank := isBlank_of_mem_nil
  afterColon := [' ']
  afterColon_blank := by
    intro c hc
    rw [List.mem_singleton.mp hc]
    rfl
  number := py.floatText

mutual
/-- The exception of `_iterencode`, with `depth` levels of nesting left. -/
def encodeError : Json → Nat → Option PyError
  | .arr _, 0 => some .recursionError
  | .arr xs, depth + 1 => encodeItemsError xs depth
  | .obj _, 0 => some .recursionError
  | .obj d, depth + 1 => encodeMembersError d depth
  | .int n, _ => if (Nat.toDigits 10 n.natAbs).length ≤ maxStrDigits then none else some .valueError
  | _, _ => none

def encodeItemsError : List Json → Nat → Option PyError
  | [], _ => none
  | x :: xs, depth => (encodeError x depth).or (encodeItemsError xs depth)

def encodeMembersError : Dict → Nat → Option PyError
  | [], _ => none
  | (_, x) :: d, depth => (encodeError x depth).or (encodeMembersError d depth)
end

/-- `json.dumps(value, indent=2, sort_keys=True)`, for values that nest at most `depth`
levels. -/
def Python.dumps (py : Python) (depth : Nat) (value : Json) : Py String :=
  let sorted := Json.sortKeys value
  match encodeError sorted depth with
  | some e => .error e
  | none => .ok (String.ofList (write py.style 0 sorted))

/-- What `main` writes to the output file. -/
def Host.publish (host : Host) (depth : Nat) (entries : List Json) (settings : DashboardSettings)
    (now : Utc) (inputs : Inputs) : Py String := do
  let snapshot ← host.buildSnapshot entries settings now inputs
  let text ← host.dumps depth snapshot.toJson
  return text ++ "\n"

mutual
theorem encodeError_eq_none : ∀ (value : Json) (depth : Nat),
    encodeError value depth = none ↔ value.nesting ≤ depth ∧ value.AllLeaves ShortInt
  | .arr xs, 0 => by simp [encodeError, Json.nesting]
  | .arr xs, depth + 1 => by
      rw [encodeError, Json.nesting, Nat.succ_le_succ_iff, Json.nestingList_le, Json.allLeaves_arr]
      exact (encodeItemsError_eq_none xs depth).trans forall₂_and
  | .obj d, 0 => by simp [encodeError, Json.nesting]
  | .obj d, depth + 1 => by
      rw [encodeError, Json.nesting, Nat.succ_le_succ_iff, Json.nestingFields_le, Json.allLeaves_obj]
      exact (encodeMembersError_eq_none d depth).trans forall₂_and
  | .int n, depth => by simp [encodeError, Json.nesting, ShortInt]
  | .null, depth => by simp [encodeError, Json.nesting, ShortInt]
  | .bool b, depth => by simp [encodeError, Json.nesting, ShortInt]
  | .float x, depth => by simp [encodeError, Json.nesting, ShortInt]
  | .str s, depth => by simp [encodeError, Json.nesting, ShortInt]

theorem encodeItemsError_eq_none : ∀ (xs : List Json) (depth : Nat),
    encodeItemsError xs depth = none ↔ ∀ x ∈ xs, x.nesting ≤ depth ∧ x.AllLeaves ShortInt
  | [], depth => by simp [encodeItemsError]
  | x :: xs, depth => by
      rw [List.forall_mem_cons, ← encodeError_eq_none x depth, ← encodeItemsError_eq_none xs depth,
        encodeItemsError, Option.or_eq_none_iff]

theorem encodeMembersError_eq_none : ∀ (d : Dict) (depth : Nat),
    encodeMembersError d depth = none ↔ ∀ f ∈ d, f.2.nesting ≤ depth ∧ f.2.AllLeaves ShortInt
  | [], depth => by simp [encodeMembersError]
  | (name, x) :: d, depth => by
      rw [List.forall_mem_cons, ← encodeError_eq_none x depth, ← encodeMembersError_eq_none d depth,
        encodeMembersError, Option.or_eq_none_iff]
end

variable {py : Python} {depth : Nat} {value : Json} {text : String}

theorem dumps_eq_ok : py.dumps depth value = .ok text ↔
    value.nesting ≤ depth ∧ value.AllLeaves ShortInt ∧
      text = String.ofList (write py.style 0 (Json.sortKeys value)) := by
  have herror := encodeError_eq_none (Json.sortKeys value) depth
  rw [Json.nesting_sortKeys_le, Json.allLeaves_sortKeys] at herror
  unfold Python.dumps
  dsimp only
  cases h : encodeError (Json.sortKeys value) depth with
  | none =>
      obtain ⟨hnesting, hints⟩ := herror.mp h
      simp [hnesting, hints, eq_comm]
  | some e =>
      simp only [h, reduceCtorEq, false_iff] at herror ⊢
      exact fun hall => herror ⟨hall.1, hall.2.1⟩

/-- `json.dumps` writes whatever is not nested too deep and has no over-long integer. -/
theorem dumps_returns :
    Returns (py.dumps depth value) ↔ value.nesting ≤ depth ∧ value.AllLeaves ShortInt := by
  simp only [Returns, dumps_eq_ok]
  constructor
  · rintro ⟨_, hnesting, hints, _⟩
    exact ⟨hnesting, hints⟩
  · rintro ⟨hnesting, hints⟩
    exact ⟨_, hnesting, hints, rfl⟩

/-! ### The page -/

/-- What `JSON.parse` accepts. -/
def jsonDialect : Dialect := ⟨false, none, none, none, none⟩

mutual
/-- Every number as a double. -/
def doubles : Json → Json
  | .int n => .float (floatOfInt n)
  | .arr xs => .arr (doublesItems xs)
  | .obj fs => .obj (doublesMembers fs)
  | value => value

def doublesItems : List Json → List Json
  | [] => []
  | x :: xs => doubles x :: doublesItems xs

def doublesMembers : Dict → Dict
  | [] => []
  | (name, x) :: fs => (name, doubles x) :: doublesMembers fs
end

/-- `JSON.parse(text)`. -/
def jsonParse (text : String) : Except Fault Json := (whole jsonDialect text.toList).map doubles

/-- A value as the page gets it. -/
def onPage (value : Json) : Json := doubles (Json.sortKeys value)

/-- `value.a.b.c`. -/
def property (value : Json) (path : List String) : Option Json := path.foldlM Json.get? value

/-- A float that is a number of JSON. -/
def FiniteNumber (leaf : Json) : Prop := ∀ x, leaf = .float x → Double.IsFinite x

/-- `repr` of a float is read by `JSON.parse` as that float. -/
structure Python.ReprReads (py : Python) (x : Float) : Prop where
  nonempty : (py.floatRepr x).toList ≠ []
  chars : ∀ c ∈ (py.floatRepr x).toList, isAtomChar c = true
  read : atom jsonDialect (py.floatRepr x).toList = .ok (.float x)

theorem floatText_of_isFinite {x : Float} (h : Double.IsFinite x) :
    py.floatText x = (py.floatRepr x).toList := by
  rw [Python.floatText, h.1, h.2]
  rfl

/-- The words for the other floats are no numbers. -/
theorem floatText_malformed {x : Float} (h : ¬ Double.IsFinite x) :
    py.floatText x ≠ [] ∧ (∀ c ∈ py.floatText x, isAtomChar c = true) ∧
      atom jsonDialect (py.floatText x) = .error .malformed := by
  have hwords : py.floatText x = "NaN".toList ∨ py.floatText x = "-Infinity".toList ∨
      py.floatText x = "Infinity".toList := by
    unfold Python.floatText
    split
    · exact .inl rfl
    · split
      · split
        · exact .inr (.inl rfl)
        · exact .inr (.inr rfl)
      · rename_i hnan hinf
        exact absurd ⟨Bool.eq_false_of_not_eq_true hnan, Bool.eq_false_of_not_eq_true hinf⟩ h
  rcases hwords with hword | hword | hword
  · rw [hword]
    exact ⟨by decide, List.all_eq_true.mp rfl, rfl⟩
  · rw [hword]
    exact ⟨by decide, List.all_eq_true.mp rfl, rfl⟩
  · rw [hword]
    exact ⟨by decide, List.all_eq_true.mp rfl, rfl⟩

theorem lookup_doublesMembers (name : String) (fs : Dict) :
    Json.lookup name (doublesMembers fs) = (Json.lookup name fs).map doubles := by
  induction fs with
  | nil => rfl
  | cons f fs ih =>
      rw [doublesMembers, Json.lookup, Json.lookup, ih]
      split <;> rfl

/-- The page finds the members that were written. -/
theorem get?_onPage (name : String) (h : value.Distinct) :
    (onPage value).get? name = (value.get? name).map onPage := by
  cases value with
  | obj fs =>
      have hlookup := Json.lookup_sortMembers h.1 name
      rw [onPage, Json.sortKeys, doubles, Json.get?, lookup_doublesMembers, hlookup, Json.get?,
        Option.map_map]
      rfl
  | _ => rfl

theorem distinct_member {name : String} {member : Json} (h : value.Distinct)
    (hmember : value.get? name = some member) : member.Distinct := by
  cases value with
  | obj fs => exact Json.distinctMembers_iff.mp h.2 (name, member) (Json.mem_of_lookup hmember)
  | _ => cases hmember

theorem property_onPage (path : List String) (h : value.Distinct) :
    property (onPage value) path = (property value path).map onPage := by
  induction path generalizing value with
  | nil => rfl
  | cons name path ih =>
      simp only [property, List.foldlM_cons] at ih ⊢
      rw [get?_onPage name h]
      cases hmember : value.get? name with
      | none => rfl
      | some member => exact ih (distinct_member h hmember)

section Text

variable (hrepr : ∀ x, .float x ∈ value.leaves → Double.IsFinite x → py.ReprReads x)

include hrepr

theorem spelled_of_repr : (Json.sortKeys value).AllLeaves (Spelled py.style) := by
  rw [Json.allLeaves_sortKeys]
  intro leaf hleaf
  cases leaf with
  | float x =>
      by_cases hfinite : Double.IsFinite x
      · have hreads := hrepr x hleaf hfinite
        have htext : py.style.number x = (py.floatRepr x).toList := floatText_of_isFinite hfinite
        rw [Spelled, htext]
        exact ⟨hreads.nonempty, hreads.chars⟩
      · obtain ⟨hne, hchars, _⟩ := @floatText_malformed py _ hfinite
        exact ⟨hne, hchars⟩
  | _ => trivial

omit hrepr in
theorem jsonParse_eq (cs : List Char) :
    jsonParse (String.ofList cs ++ "\n") = (whole jsonDialect (cs ++ ['\n'])).map doubles := by
  unfold jsonParse
  rw [String.toList_append, String.toList_ofList]
  rfl

omit hrepr in
theorem blank_newline : ∀ c ∈ ['\n'], isBlank c = true := List.forall_mem_singleton.mpr rfl

/-- The page reads the value that was written, if all its numbers are finite. -/
theorem jsonParse_dumps (hdistinct : value.Distinct) (htext : py.dumps depth value = .ok text)
    (hfinite : value.AllLeaves FiniteNumber) : jsonParse (text ++ "\n") = .ok (onPage value) := by
  obtain ⟨_, _, rfl⟩ := dumps_eq_ok.mp htext
  have hlegible : (Json.sortKeys value).AllLeaves (Legible jsonDialect py.style) := by
    rw [Json.allLeaves_sortKeys]
    intro leaf hleaf
    cases leaf with
    | int n => rfl
    | float x =>
        have hx := hfinite _ hleaf x rfl
        have hnumber : py.style.number x = (py.floatRepr x).toList := floatText_of_isFinite hx
        rw [Legible, hnumber]
        exact (hrepr x hleaf hx).read
    | _ => trivial
  have hwritable : Writable jsonDialect py.style (Json.sortKeys value) :=
    ⟨spelled_of_repr hrepr, fun _ _ => rfl, Json.distinct_sortKeys hdistinct, rfl⟩
  rw [jsonParse_eq, whole_write hwritable hlegible blank_newline]
  rfl

/-- Other files it cannot read. -/
theorem finite_of_jsonParse (htext : py.dumps depth value = .ok text) {page : Json}
    (hpage : jsonParse (text ++ "\n") = .ok page) : value.AllLeaves FiniteNumber := by
  obtain ⟨_, _, rfl⟩ := dumps_eq_ok.mp htext
  rw [← Json.allLeaves_sortKeys]
  rintro _ hleaf x rfl
  by_contra hnot
  obtain ⟨_, _, hmalformed⟩ := @floatText_malformed py _ hnot
  have hfails := whole_write_fails (spelled_of_repr hrepr) hleaf hmalformed blank_newline
  rw [jsonParse_eq] at hpage
  cases hwhole : whole jsonDialect (write py.style 0 (Json.sortKeys value) ++ ['\n']) with
  | ok j => exact hfails j hwhole
  | error f =>
      rw [hwhole] at hpage
      cases hpage

end Text

/-! ### The names and the numbers of a document -/

/-- No object has a name twice, and `P` holds of every scalar. -/
def Tidy (P : Json → Prop) (j : Json) : Prop := j.Distinct ∧ j.AllLeaves P

/-- `P` holds of whatever is not a float. -/
structure Ordinary (P : Json → Prop) : Prop where
  null : P .null
  bool : ∀ b, P (.bool b)
  int : ∀ n, P (.int n)
  str : ∀ s, P (.str s)

theorem ordinary_true : Ordinary fun _ => True :=
  ⟨trivial, fun _ => trivial, fun _ => trivial, fun _ => trivial⟩

theorem ordinary_finiteNumber : Ordinary FiniteNumber := by
  constructor
  · rintro x ⟨⟩
  · rintro b x ⟨⟩
  · rintro n x ⟨⟩
  · rintro s x ⟨⟩

/-- The floats of a table section. -/
def TableSummary.figures (s : TableSummary) : List Float :=
  s.averageRowsPerDataFile.toList ++ s.averageDataFileSizeBytes.toList

/-- The floats of a cost section. -/
def CostSummary.figures (s : CostSummary) : List Float :=
  s.todayNetCost.toList ++ s.sevenDayNetCost.toList ++ s.monthToDateNetCost.toList ++
    s.dailyCosts.map DailyCost.netCost ++ s.topServices.map ServiceCost.netCost

section Tidy

variable {P : Json → Prop} (hP : Ordinary P)

@[simp] theorem tidy_arr {items : List Json} :
    Tidy P (.arr items) ↔ ∀ j ∈ items, Tidy P j := by
  rw [Tidy, Json.Distinct, Json.distinctItems_iff, Json.allLeaves_arr]
  exact forall₂_and.symm

/-- A record is plain when its values are. -/
theorem tidy_record {fields : Dict} (hnames : (fields.map Prod.fst).Nodup) :
    Tidy P (.obj fields) ↔ ∀ value ∈ fields.map Prod.snd, Tidy P value := by
  rw [Tidy, Json.Distinct, Json.distinctMembers_iff, Json.allLeaves_obj, List.forall_mem_map]
  constructor
  · rintro ⟨⟨_, hdistinct⟩, hleaves⟩ f hf
    exact ⟨hdistinct f hf, hleaves f hf⟩
  · intro h
    exact ⟨⟨hnames, fun f hf => (h f hf).1⟩, fun f hf => (h f hf).2⟩

@[simp] theorem tidy_float {x : Float} : Tidy P (.float x) ↔ P (.float x) := by
  simp [Tidy, Json.Distinct]

include hP

theorem Ordinary.tidy_null : Tidy P .null := ⟨trivial, Json.allLeaves_null.mpr hP.null⟩

theorem Ordinary.tidy_str (s : String) : Tidy P (.str s) :=
  ⟨trivial, Json.allLeaves_str.mpr (hP.str s)⟩

theorem Ordinary.tidy_int (n : Int) : Tidy P (.int n) :=
  ⟨trivial, Json.allLeaves_int.mpr (hP.int n)⟩

theorem Ordinary.tidy_bool (b : Bool) : Tidy P (.bool b) :=
  ⟨trivial, Json.allLeaves_bool.mpr (hP.bool b)⟩

theorem Ordinary.tidy_utc (s : UtcText) : Tidy P s.toJson := hP.tidy_str s.text

theorem Ordinary.tidy_whole (n : Whole) : Tidy P n.toJson := by
  cases n with
  | int n => exact hP.tidy_int n
  | bool b => exact hP.tidy_bool b

theorem Ordinary.tidy_orNull {α : Type} {toJson : α → Json} {x : Option α} :
    Tidy P (orNull toJson x) ↔ ∀ y ∈ x, Tidy P (toJson y) := by
  cases x with
  | none => simp [orNull, hP.tidy_null]
  | some y => simp [orNull]

theorem Health.tidy (h : Health) : Tidy P h.toJson := by
  rw [Health.toJson, tidy_record (by simp)]
  simp [hP.tidy_str]

theorem Alert.tidy (a : Alert) : Tidy P a.toJson := by
  rw [Alert.toJson, tidy_record (by simp)]
  simp [hP.tidy_str, hP.tidy_utc]

/-- The bar time is shown as it is found. -/
theorem ExtractorSummary.tidy_iff (s : ExtractorSummary) :
    Tidy P s.toJson ↔ Tidy P s.lastBarUtc := by
  have hreason : Tidy P (if s.idleWindow then .str "idle_window" else .null) := by
    split
    · exact hP.tidy_str _
    · exact hP.tidy_null
  rw [ExtractorSummary.toJson, tidy_record (by simp)]
  simp [hP.tidy_str, hP.tidy_utc, hP.tidy_whole, hP.tidy_orNull, hreason]

theorem Commit.tidy (c : Commit) : Tidy P c.toJson := by
  rw [Commit.toJson, tidy_record (by simp)]
  simp [hP.tidy_utc, hP.tidy_whole, hP.tidy_orNull]

theorem PartitionRow.tidy (r : PartitionRow) : Tidy P r.toJson := by
  rw [PartitionRow.toJson, tidy_record (by simp)]
  simp [hP.tidy_whole]

theorem LoaderSummary.tidy (s : LoaderSummary) : Tidy P s.toJson := by
  rw [LoaderSummary.toJson, tidy_record (by simp)]
  simp [hP.tidy_str, hP.tidy_utc, hP.tidy_int, hP.tidy_bool, hP.tidy_whole, hP.tidy_orNull,
    PartitionRow.tidy hP, Commit.tidy hP]

theorem TableSummary.tidy_iff (s : TableSummary) :
    Tidy P s.toJson ↔ ∀ x ∈ s.figures, P (.float x) := by
  rw [TableSummary.toJson, tidy_record (by simp)]
  simp [hP.tidy_str, hP.tidy_utc, hP.tidy_int, hP.tidy_whole, hP.tidy_orNull, natJson,
    TableSummary.figures, or_imp, forall_and]

theorem DailyCost.tidy_iff (c : DailyCost) : Tidy P c.toJson ↔ P (.float c.netCost) := by
  rw [DailyCost.toJson, tidy_record (by simp)]
  simp [hP.tidy_str]

theorem ServiceCost.tidy_iff (c : ServiceCost) : Tidy P c.toJson ↔ P (.float c.netCost) := by
  rw [ServiceCost.toJson, tidy_record (by simp)]
  simp [hP.tidy_str]

theorem CostSummary.tidy_iff (s : CostSummary) :
    Tidy P s.toJson ↔ ∀ x ∈ s.figures, P (.float x) := by
  rw [CostSummary.toJson, tidy_record (by simp)]
  simp [hP.tidy_str, hP.tidy_utc, hP.tidy_orNull, DailyCost.tidy_iff hP,
    ServiceCost.tidy_iff hP, CostSummary.figures, or_imp, forall_and]

/-- Beside the figures only the bar time can be anything. -/
theorem Snapshot.tidy_iff (s : Snapshot) :
    Tidy P s.toJson ↔
      Tidy P s.extractor.lastBarUtc ∧ ∀ x ∈ s.table.figures ++ s.costs.figures, P (.float x) := by
  have hmarket : Tidy P (.obj [("state", .str s.marketState.text),
      ("next_expected_open_utc", s.nextExpectedOpenUtc.toJson)]) := by
    rw [tidy_record (by simp)]
    simp [hP.tidy_str, hP.tidy_utc]
  rw [Snapshot.toJson, tidy_record (by simp), List.forall_mem_append]
  simp only [List.map_cons, List.map_nil, List.forall_mem_cons, List.not_mem_nil, false_imp_iff,
    implies_true, and_true, hP.tidy_int, hP.tidy_utc, hmarket, Health.tidy hP,
    ExtractorSummary.tidy_iff hP, LoaderSummary.tidy hP, TableSummary.tidy_iff hP,
    CostSummary.tidy_iff hP, tidy_arr, List.mem_map, forall_exists_index, and_imp,
    forall_apply_eq_imp_iff₂, Alert.tidy hP, true_and]

end Tidy

/-! ### The figures are finite -/

theorem mem_mapM {α β : Type} {f : α → Py β} {xs : List α} {ys : List β} (h : xs.mapM f = .ok ys)
    {y : β} (hy : y ∈ ys) : ∃ x ∈ xs, f x = .ok y := by
  have hall := Result.mapM_eq_ok.mp h
  clear h
  induction hall with
  | nil => cases hy
  | cons hx _ ih =>
      rcases List.mem_cons.mp hy with rfl | hy
      · exact ⟨_, List.mem_cons_self, hx⟩
      · obtain ⟨x, hmem, hx⟩ := ih hy
        exact ⟨x, .tail _ hmem, hx⟩

theorem trueDiv_isFinite {n d : Nat} {x : Float} (h : trueDiv n d = .ok x) : Double.IsFinite x := by
  unfold trueDiv at h
  split at h
  · cases h
  · rename_i hinf
    cases h
    rcases Nat.eq_zero_or_pos d with rfl | hd
    · have hzero : Double.ofRatio n 0 = Double.ofRatio 0 1 := by
        rw [Double.ofRatio, dif_neg (by omega), Double.ofRatio, dif_neg (by omega)]
      have hholds := Double.ofRatio_zero 1
      rw [hzero]
      exact ⟨hholds.not_isNaN, hholds.not_isInf⟩
    · exact Double.ofRatio_isFinite hd (Bool.eq_false_of_not_eq_true hinf)

theorem ratio_isFinite {numerator denominator : Option Whole} {r : Option Float}
    (h : ratio numerator denominator = .ok r) : ∀ x ∈ r, Double.IsFinite x := by
  unfold ratio at h
  split at h
  · split at h
    · cases h
      exact fun _ hx => absurd hx (by simp)
    · obtain ⟨quotient, hquotient, h⟩ := Result.bind_eq_ok.mp h
      cases h
      rintro x ⟨⟩
      exact Double.roundTo_two_isFinite (trueDiv_isFinite hquotient)
  · cases h
    exact fun _ hx => absurd hx (by simp)

theorem table_figures_isFinite {host : Host} {metadata : Json} {given : String}
    {table : TableSummary} (h : host.summarizeTableMetadata metadata given = .ok table) :
    ∀ x ∈ table.figures, Double.IsFinite x := by
  have hnone : ∀ reason, ∀ x ∈ (unavailableTable reason).figures, Double.IsFinite x :=
    fun _ _ hx => absurd hx List.not_mem_nil
  unfold Host.summarizeTableMetadata at h
  split at h
  · split at h
    · cases h
      exact hnone _
    · obtain ⟨found, _, h⟩ := Result.bind_eq_ok.mp h
      split at h
      · cases h
        exact hnone _
      · split at h
        · simp only [Host.tableFigures, Result.bind_eq_ok, Result.pure_eq_ok] at h
          obtain ⟨_, _, _, _, _, _, _, _, _, _, _, _, _, _, _, _, _, _, rows, hrows, sizes, hsizes, _, _,
            _, _, _, _, rfl⟩ := h
          intro x hx
          rcases List.mem_append.mp hx with hx | hx
          · exact ratio_isFinite hrows x (Option.mem_toList.mp hx)
          · exact ratio_isFinite hsizes x (Option.mem_toList.mp hx)
        · cases h
          exact hnone _
    · cases h
      exact hnone _
  · cases h
    exact hnone _

theorem safeCost_isFinite {cost : Json} {r : Option Float} (h : safeCost cost = .ok r) :
    ∀ x ∈ r, Double.IsFinite x := by
  unfold safeCost at h
  split at h
  · cases h
    exact fun _ hx => absurd hx (by simp)
  · split at h
    · cases h
      split
      · exact fun _ hx => absurd hx (by simp)
      · rename_i hfinite
        rw [Bool.or_eq_true, not_or] at hfinite
        rintro x ⟨⟩
        exact Double.roundTo_two_isFinite
          ⟨Bool.eq_false_of_not_eq_true hfinite.1, Bool.eq_false_of_not_eq_true hfinite.2⟩
    · split at h
      · cases h
        exact fun _ hx => absurd hx (by simp)
      · cases h

theorem safeDailyCost_isFinite {item : Json} {r : Option DailyCost} (h : safeDailyCost item = .ok r) :
    ∀ c ∈ r, Double.IsFinite c.netCost := by
  unfold safeDailyCost at h
  split at h
  · split at h
    · split at h
      · obtain ⟨cost, hcost, h⟩ := Result.bind_eq_ok.mp h
        cases h
        intro c hc
        obtain ⟨x, hx, rfl⟩ := Option.map_eq_some_iff.mp hc
        exact safeCost_isFinite hcost x hx
      · cases h
        exact fun _ hc => absurd hc (by simp)
    · cases h
      exact fun _ hc => absurd hc (by simp)
  · cases h
    exact fun _ hc => absurd hc (by simp)

theorem safeDailyCosts_isFinite {daily : Json} {costs : List DailyCost}
    (h : safeDailyCosts daily = .ok costs) : ∀ c ∈ costs, Double.IsFinite c.netCost := by
  unfold safeDailyCosts at h
  split at h
  · obtain ⟨found, hfound, h⟩ := Result.bind_eq_ok.mp h
    cases h
    intro c hc
    have hmem := (List.perm_insertionSort DailyCost.Le _).mem_iff.mp (List.mem_of_mem_drop hc)
    obtain ⟨r, hr, hrc⟩ := List.mem_filterMap.mp hmem
    obtain ⟨item, _, hitem⟩ := mem_mapM hfound hr
    exact safeDailyCost_isFinite hitem c hrc
  · cases h
    exact fun _ hc => absurd hc List.not_mem_nil

theorem safeTopService_isFinite {item : Json} {r : Option ServiceCost}
    (h : safeTopService item = .ok r) : ∀ c ∈ r, Double.IsFinite c.netCost := by
  unfold safeTopService at h
  split at h
  · obtain ⟨cost, hcost, h⟩ := Result.bind_eq_ok.mp h
    split at h
    · split at h
      · cases h
        intro c hc
        obtain ⟨x, hx, rfl⟩ := Option.map_eq_some_iff.mp hc
        exact safeCost_isFinite hcost x hx
      · cases h
        exact fun _ hc => absurd hc (by simp)
    · cases h
      exact fun _ hc => absurd hc (by simp)
  · cases h
    exact fun _ hc => absurd hc (by simp)

theorem safeTopServices_isFinite {top : Json} {costs : List ServiceCost}
    (h : safeTopServices top = .ok costs) : ∀ c ∈ costs, Double.IsFinite c.netCost := by
  unfold safeTopServices at h
  split at h
  · obtain ⟨found, hfound, h⟩ := Result.bind_eq_ok.mp h
    cases h
    intro c hc
    obtain ⟨r, hr, hrc⟩ := List.mem_filterMap.mp hc
    obtain ⟨item, _, hitem⟩ := mem_mapM hfound hr
    exact safeTopService_isFinite hitem c hrc
  · cases h
    exact fun _ hc => absurd hc List.not_mem_nil

theorem cost_figures_isFinite {snapshot : Json} {now : Utc} {given : String} {costs : CostSummary}
    (h : summarizeCostSnapshot snapshot now given = .ok costs) :
    ∀ x ∈ costs.figures, Double.IsFinite x := by
  have hnone : ∀ reason, ∀ x ∈ (unavailableCosts reason).figures, Double.IsFinite x :=
    fun _ _ hx => absurd hx List.not_mem_nil
  unfold summarizeCostSnapshot at h
  split at h
  · split at h
    · split at h
      · simp only [costFigures, Result.bind_eq_ok] at h
        obtain ⟨_, _, _, _, sevenDay, hsevenDay, monthToDate, hmonthToDate, daily, hdaily, top, htop,
          h⟩ := h
        split at h
        · cases h
          have hdailyFinite := safeDailyCosts_isFinite hdaily
          have htopFinite := safeTopServices_isFinite htop
          intro x hx
          simp only [CostSummary.figures, List.mem_append, Option.mem_toList, List.mem_map] at hx
          rcases hx with (((hx | hx) | hx) | ⟨c, hc, rfl⟩) | ⟨c, hc, rfl⟩
          · obtain ⟨c, hc, rfl⟩ := Option.map_eq_some_iff.mp hx
            exact hdailyFinite c (List.mem_of_find?_eq_some hc)
          · exact safeCost_isFinite hsevenDay x hx
          · exact safeCost_isFinite hmonthToDate x hx
          · exact hdailyFinite c hc
          · exact htopFinite c hc
        · cases h
          exact hnone _
      · cases h
        exact hnone _
    · cases h
      exact hnone _
  · cases h
    exact hnone _

/-! ### Snapshots are read from text -/

theorem loadSnapshot_distinct {host : Host} {raw : Json} {d : Dict}
    (h : host.loadSnapshot raw = .ok d) : (Json.obj d).Distinct := by
  have hempty : (Json.obj []).Distinct := ⟨List.nodup_nil, trivial⟩
  unfold Host.loadSnapshot at h
  split at h
  · rename_i text
    split at h
    · rename_i d hloads
      cases h
      unfold Python.loads at hloads
      split at hloads
      · rename_i hwhole
        cases hloads
        exact distinct_of_whole hwhole
      all_goals cases hloads
    · cases h
      exact hempty
    · cases h
      exact hempty
    · cases h
  · cases h
    exact hempty

theorem readEntries_distinct {host : Host} {now : Utc} {entries : List Json} {readings : Readings}
    (h : host.readEntries now entries = .ok readings) :
    ∀ e ∈ readings.extractorEvents, (Json.obj e.snapshot).Distinct := by
  obtain ⟨rs, hrs, h⟩ := Result.bind_eq_ok.mp h
  cases h
  intro e he
  obtain ⟨r, hr, hre⟩ := List.mem_filterMap.mp he
  obtain ⟨entry, _, hentry⟩ := mem_mapM hrs hr
  obtain ⟨payload, _, hentry⟩ := Result.bind_eq_ok.mp hentry
  split at hentry
  · obtain ⟨stamp, _, hentry⟩ := Result.bind_eq_ok.mp hentry
    obtain ⟨entryTime, _, hentry⟩ := Result.bind_eq_ok.mp hentry
    split at hentry
    · obtain ⟨event, hevent, hentry⟩ := Result.bind_eq_ok.mp hentry
      obtain ⟨alert, _, hentry⟩ := Result.bind_eq_ok.mp hentry
      cases hentry
      obtain rfl : event = some e := hre
      unfold Host.extractExtractorEvent at hevent
      split at hevent
      · split at hevent
        · obtain ⟨snapshot, hsnapshot, hevent⟩ := Result.bind_eq_ok.mp hevent
          cases hevent
          exact loadSnapshot_distinct hsnapshot
        · cases hevent
      · cases hevent
    · split at hentry
      · obtain ⟨event, _, hentry⟩ := Result.bind_eq_ok.mp hentry
        cases hentry
        cases hre
      · cases hentry
        cases hre
  · cases hentry

theorem distinct_dictGet {d : Dict} (h : (Json.obj d).Distinct) (name : String) :
    (dictGet d name).Distinct := by
  unfold dictGet dictGetOr
  cases hlookup : Json.lookup name d with
  | none => trivial
  | some j => exact Json.distinctMembers_iff.mp h.2 (name, j) (Json.mem_of_lookup hlookup)

/-! ### The published file -/

section Published

variable {host : Host} {depth : Nat} {entries : List Json} {settings : DashboardSettings} {now : Utc}
  {inputs : Inputs} {doc : Snapshot} {text : String}

theorem dumps_of_publish (hdoc : host.buildSnapshot entries settings now inputs = .ok doc)
    (htext : host.publish depth entries settings now inputs = .ok text) :
    ∃ written, host.dumps depth doc.toJson = .ok written ∧ text = written ++ "\n" := by
  simp only [Host.publish, Result.bind_eq_ok, Result.pure_eq_ok] at htext
  obtain ⟨_, hsame, written, hwritten, htext⟩ := htext
  rw [hdoc] at hsame
  cases hsame
  exact ⟨written, hwritten, htext.symm⟩

theorem lastBarUtc_distinct (hdoc : host.buildSnapshot entries settings now inputs = .ok doc) :
    doc.extractor.lastBarUtc.Distinct := by
  obtain ⟨_, _, readings, _, _, _, _, _, hread, _, _, _, _, rfl⟩ := buildSnapshot_eq_ok.mp hdoc
  refine (lastBarUtc_sorted Json.Distinct trivial readings).mpr fun e he => ?_
  have hmem : e ∈ readings.extractorEvents := (List.mem_filter.mp he.mem).1
  exact distinct_dictGet (readEntries_distinct hread e hmem) _

theorem document_distinct (hdoc : host.buildSnapshot entries settings now inputs = .ok doc) :
    doc.toJson.Distinct :=
  ((Snapshot.tidy_iff ordinary_true doc).mpr
    ⟨⟨lastBarUtc_distinct hdoc, fun _ _ => trivial⟩, fun _ _ => trivial⟩).1

/-- Only the bar time can have a number that is NaN or infinite. -/
theorem document_finite_iff (hdoc : host.buildSnapshot entries settings now inputs = .ok doc) :
    doc.toJson.AllLeaves FiniteNumber ↔ doc.extractor.lastBarUtc.AllLeaves FiniteNumber := by
  have hfigures : ∀ x ∈ doc.table.figures ++ doc.costs.figures, FiniteNumber (.float x) := by
    obtain ⟨_, _, _, _, _, _, _, _, _, _, htable, hcosts, _, rfl⟩ := buildSnapshot_eq_ok.mp hdoc
    rintro x hx _ ⟨⟩
    rcases List.mem_append.mp hx with hx | hx
    · exact table_figures_isFinite htable x hx
    · exact cost_figures_isFinite hcosts x hx
  have htidy := Snapshot.tidy_iff ordinary_finiteNumber doc
  constructor
  · exact fun h => (htidy.mp ⟨document_distinct hdoc, h⟩).1.2
  · exact fun h => (htidy.mpr ⟨⟨lastBarUtc_distinct hdoc, h⟩, hfigures⟩).2

/-- The page can read the published file exactly if the bar time of the newest
metrics event has no number that is NaN or infinite; then every property of every
record is the one of the document. -/
theorem published_read_iff {host : Host} {depth : Nat} {entries : List Json}
    {settings : DashboardSettings} {now : Utc} {inputs : Inputs} {doc : Snapshot} {text : String}
    (hdoc : host.buildSnapshot entries settings now inputs = .ok doc)
    (htext : host.publish depth entries settings now inputs = .ok text)
    (hrepr : ∀ x, .float x ∈ doc.toJson.leaves → Double.IsFinite x → host.ReprReads x) :
    ∃ readings, host.readEntries now entries = .ok readings ∧
      ((∃ page, jsonParse text = .ok page) ↔ ∀ e, ShownMetrics readings e →
        (dictGet e.snapshot "last_message_ts").AllLeaves FiniteNumber) ∧
      ∀ page, jsonParse text = .ok page →
        ∀ path, property page path = (property doc.toJson path).map onPage := by
  obtain ⟨written, hwritten, rfl⟩ := dumps_of_publish hdoc htext
  have hdistinct := document_distinct hdoc
  have hfinite := document_finite_iff hdoc
  obtain ⟨_, _, readings, _, _, _, _, _, hread, _, _, _, _, hdocument⟩ := buildSnapshot_eq_ok.mp hdoc
  have hbar : doc.extractor.lastBarUtc.AllLeaves FiniteNumber ↔ ∀ e, ShownMetrics readings e →
      (dictGet e.snapshot "last_message_ts").AllLeaves FiniteNumber := by
    rw [hdocument]
    exact lastBarUtc_sorted _ (by simp [FiniteNumber]) readings
  refine ⟨readings, hread, ?_, ?_⟩
  · rw [← hbar, ← hfinite]
    constructor
    · rintro ⟨page, hpage⟩
      exact finite_of_jsonParse hrepr hwritten hpage
    · exact fun h => ⟨_, jsonParse_dumps hrepr hdistinct hwritten h⟩
  · intro page hpage path
    have hread := jsonParse_dumps hrepr hdistinct hwritten (finite_of_jsonParse hrepr hwritten hpage)
    rw [hread] at hpage
    cases hpage
    exact property_onPage path hdistinct

end Published

/-- A machine that has met one float. -/
def quarterHost : Host := { summerHost with floatRepr := fun _ => "1.25" }

/-- A table with five rows in four files. -/
def quarterInputs : Inputs where
  tableMetadata := .obj [("last-updated-ms", .int 1788004800000), ("current-snapshot-id", .int 1),
    ("snapshots", .arr [.obj [("snapshot-id", .int 1), ("timestamp-ms", .int 1788004800000),
      ("summary", .obj [("operation", .str "append"), ("total-records", .str "5"),
        ("total-data-files", .str "4")])]])]
  tableUnavailableReason := "not_configured"
  costSnapshot := .null
  costUnavailableReason := "not_configured"

/-- A metrics line with a bar. -/
def quarterEntry : Json :=
  .obj [("timestamp", .str "2026-08-29T11:59:00Z"), ("jsonPayload", .obj [
    ("_SYSTEMD_UNIT", .str EXTRACTOR_UNIT), ("fields", .obj [("message", .str "metrics"),
      ("snapshot", .str "\x7b\"last_message_ts\":\"2026-08-28T20:00:00+00:00\"\x7d")])])]

theorem quarter_facts : ∃ doc,
    quarterHost.buildSnapshot [quarterEntry] (.default "p") saturdayNoon quarterInputs = .ok doc ∧
      encodeError doc.toJson 990 = none ∧
      doc.extractor.lastBarUtc = .str "2026-08-28T20:00:00+00:00" ∧
      doc.table.figures ++ doc.costs.figures = [1.25] := by
  refine ⟨_, rfl, ?_, rfl, rfl⟩
  decide +kernel

theorem quarter_published : ∃ doc text,
    quarterHost.buildSnapshot [quarterEntry] (.default "p") saturdayNoon quarterInputs = .ok doc ∧
      quarterHost.publish 990 [quarterEntry] (.default "p") saturdayNoon quarterInputs = .ok text ∧
      ∀ x, .float x ∈ doc.toJson.leaves → Double.IsFinite x → quarterHost.ReprReads x := by
  obtain ⟨doc, hdoc, herror, hbar, hfigures⟩ := quarter_facts
  have hreturns : Returns (quarterHost.dumps 990 doc.toJson) :=
    dumps_returns.mpr ((encodeError_eq_none _ _).mp herror)
  obtain ⟨text, htext⟩ := hreturns
  have hpublish : quarterHost.publish 990 [quarterEntry] (.default "p") saturdayNoon quarterInputs =
      .ok (text ++ "\n") :=
    Result.bind_eq_ok.mpr ⟨doc, hdoc, Result.bind_eq_ok.mpr ⟨text, htext, rfl⟩⟩
  have hordinary : Ordinary fun leaf => ∀ x, leaf = .float x → x = 1.25 := by
    constructor
    · rintro x ⟨⟩
    · rintro b x ⟨⟩
    · rintro n x ⟨⟩
    · rintro s x ⟨⟩
  have htidy := (Snapshot.tidy_iff hordinary doc).mpr (by
    rw [hbar, hfigures]
    refine ⟨hordinary.tidy_str _, ?_⟩
    rintro x hx _ ⟨⟩
    exact List.mem_singleton.mp hx)
  refine ⟨doc, text ++ "\n", hdoc, hpublish, ?_⟩
  intro x hx _
  obtain rfl : x = 1.25 := htidy.2 _ hx x rfl
  exact ⟨by decide, List.all_eq_true.mp rfl, rfl⟩

theorem published_quarter : ∃ doc text,
    quarterHost.buildSnapshot [quarterEntry] (.default "p") saturdayNoon quarterInputs = .ok doc ∧
      quarterHost.publish 990 [quarterEntry] (.default "p") saturdayNoon quarterInputs = .ok text ∧
      ∃ readings, quarterHost.readEntries saturdayNoon [quarterEntry] = .ok readings ∧
        ((∃ page, jsonParse text = .ok page) ↔ ∀ e, ShownMetrics readings e →
          (dictGet e.snapshot "last_message_ts").AllLeaves FiniteNumber) ∧
        ∀ page, jsonParse text = .ok page →
          ∀ path, property page path = (property doc.toJson path).map onPage := by
  obtain ⟨doc, text, hdoc, htext, hrepr⟩ := quarter_published
  exact ⟨doc, text, hdoc, htext, published_read_iff hdoc htext hrepr⟩

end Lakehouse.Dashboard
