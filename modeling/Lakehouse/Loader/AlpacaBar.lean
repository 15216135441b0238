/-
`AlpacaBar.java`: decoding a Kafka message into bars.

The JSON text is read as Jackson reads it (`JsonReader` with Jackson's limits);
what Jackson does with bytes and with the text of a number is a parameter
(`Jackson`). A bar carries the facts its constructor checks.

* `decodeFrame` — the decoder; it reads the first value of the payload only.
* `FromItem` — what makes an item a bar: the ten members, of which three are
  checked and the others coerced.
* `decodeFrame_eq_ok_iff` — the payloads that are decoded, and to what.
* `decodeFrame_accepts` — what an accepted payload is, with the values of items
  that conform to the frame contract unchanged.
-/

import Lakehouse.Lib.Double
import Lakehouse.Lib.JsonReader
import Lakehouse.Lib.Result
import Lakehouse.Loader.JavaText
import Lakehouse.Loader.JavaTime

namespace Lakehouse.Loader

/-! ### Jackson -/

/-- What Jackson and the JDK decide. -/
structure Jackson where
  /-- The characters of a payload; what cannot be decoded is NUL. -/
  characters : List UInt8 → List Char
  /-- The class of the exception `readTree` throws. -/
  errorClass : List UInt8 → String
  /-- The number `asDouble` finds in a text. -/
  textAsDouble : String → Option Float
  /-- The number `asLong` finds in a text. -/
  textAsLong : String → Option Int
  /-- `Double.toString`: digits, `-`, `.`, `E`, `NaN` and `Infinity`. -/
  doubleText : Float → String
  doubleText_chars : ∀ x, ∀ c ∈ (doubleText x).toList, c ≠ 'b' ∧ c ≠ ':'

namespace Jackson

/-- The limits of `StreamReadConstraints.defaults()`, less the one on the length of a
string (20,000,000). -/
def dialect : JsonReader.Dialect where
  nonFinite := false
  maxIntegerDigits := some 1000
  maxFloatDigits := some 1000
  maxNameLength := some 50000
  maxDepth := some 1000

variable (jackson : Jackson)

/-- `JsonNode.asText`. -/
def asText : Json → String
  | .null => "null"
  | .bool b => if b then "true" else "false"
  | .int n => toString n
  | .float x => jackson.doubleText x
  | .str s => s
  | .arr _ => ""
  | .obj _ => ""

/-- `JsonNode.asDouble`. -/
def asDouble : Json → Float
  | .null => 0.0
  | .bool b => if b then 1.0 else 0.0
  | .int n => Float.ofInt n
  | .float x => x
  | .str s => (jackson.textAsDouble s).getD 0.0
  | .arr _ => 0.0
  | .obj _ => 0.0

/-- The cast of a Java `double` to `long`. -/
def castLong (x : Float) : Int :=
  max (-2 ^ 63) (min (2 ^ 63 - 1) (Double.truncate 0 (-2 ^ 63) (2 ^ 63 - 1) x))

/-- `JsonNode.asLong`. -/
def asLong : Json → Int
  | .null => 0
  | .bool b => if b then 1 else 0
  | .int n => toLong n
  | .float x => castLong x
  | .str s => (jackson.textAsLong s).getD 0
  | .arr _ => 0
  | .obj _ => 0

end Jackson

/-! ### `AlpacaBar` -/

/-- The exceptions of `decodeFrame`. -/
inductive DecodeError where
  | unreadable (errorClass : String)
  | notArray
  | missing (name : String)
  | notBar
  | notInstant (text : String)
deriving DecidableEq, Repr

def DecodeError.errorClass : DecodeError → String
  | .unreadable errorClass => errorClass
  | .notArray => "java.lang.IllegalArgumentException"
  | .missing _ => "java.lang.IllegalArgumentException"
  | .notBar => "java.lang.IllegalArgumentException"
  | .notInstant _ => "java.time.format.DateTimeParseException"

structure AlpacaBar where
  T : String
  S : String
  o : Float
  h : Float
  l : Float
  c : Float
  v : Int
  t : String
  n : Int
  vw : Float
  isBar : T = "b"
  named : isBlank S = false
  timed : (Instant.parse t).isSome

/-- The ten members of an item. -/
structure Members where
  T : Json
  S : Json
  o : Json
  h : Json
  l : Json
  c : Json
  v : Json
  t : Json
  n : Json
  vw : Json

namespace AlpacaBar

variable (jackson : Jackson)

/-- The canonical constructor. -/
def new (T S : String) (o h l c : Float) (v : Int) (t : String) (n : Int) (vw : Float) :
    Except DecodeError AlpacaBar :=
  if hbar : T = "b" ∧ isBlank S = false then
    if htime : (Instant.parse t).isSome then
      .ok ⟨T, S, o, h, l, c, v, t, n, vw, hbar.1, hbar.2, htime⟩
    else .error (.notInstant t)
  else .error .notBar

/-- `JsonNode.required`. -/
def required (node : Json) (name : String) : Except DecodeError Json :=
  match node.get? name with
  | some value => .ok value
  | none => .error (.missing name)

/-- The members in the order `decodeFrame` asks for them. -/
def members (node : Json) : Except DecodeError Members := do
  let T ← required node "T"
  let S ← required node "S"
  let o ← required node "o"
  let h ← required node "h"
  let l ← required node "l"
  let c ← required node "c"
  let v ← required node "v"
  let t ← required node "t"
  let n ← required node "n"
  let vw ← required node "vw"
  .ok ⟨T, S, o, h, l, c, v, t, n, vw⟩

/-- One iteration of the loop over the items. -/
def decodeItem (node : Json) : Except DecodeError AlpacaBar := do
  let m ← members node
  new (jackson.asText m.T) (jackson.asText m.S) (jackson.asDouble m.o) (jackson.asDouble m.h)
    (jackson.asDouble m.l) (jackson.asDouble m.c) (jackson.asLong m.v) (jackson.asText m.t)
    (jackson.asLong m.n) (jackson.asDouble m.vw)

/-- `JSON.readTree(payload)`; no value is a `MissingNode`. -/
def readTree (payload : List UInt8) : Except DecodeError (Option Json) :=
  match JsonReader.lex Jackson.dialect .blank (jackson.characters payload) with
  | [] => .ok none
  | tokens =>
      match JsonReader.read Jackson.dialect ⟨[], .value⟩ tokens with
      | .ok (j, _) => .ok (some j)
      | .error _ => .error (.unreadable (jackson.errorClass payload))

/-- `AlpacaBar.decodeFrame`. -/
def decodeFrame (payload : List UInt8) : Except DecodeError (List AlpacaBar) := do
  match ← readTree jackson payload with
  | some (.arr items) => items.mapM (decodeItem jackson)
  | _ => .error .notArray

/-! ### The frame contract -/

/-- An item is an object with these ten members. -/
structure HasMembers (node : Json) (m : Members) : Prop where
  T : node.get? "T" = some m.T
  S : node.get? "S" = some m.S
  o : node.get? "o" = some m.o
  h : node.get? "h" = some m.h
  l : node.get? "l" = some m.l
  c : node.get? "c" = some m.c
  v : node.get? "v" = some m.v
  t : node.get? "t" = some m.t
  n : node.get? "n" = some m.n
  vw : node.get? "vw" = some m.vw

/-- What `decodeItem` makes of the members: `T` and `t` are strings and stay as
they are, the others are coerced. -/
structure Coerced (m : Members) (bar : AlpacaBar) : Prop where
  T : m.T = .str bar.T
  S : bar.S = jackson.asText m.S
  o : bar.o = jackson.asDouble m.o
  h : bar.h = jackson.asDouble m.h
  l : bar.l = jackson.asDouble m.l
  c : bar.c = jackson.asDouble m.c
  v : bar.v = jackson.asLong m.v
  t : m.t = .str bar.t
  n : bar.n = jackson.asLong m.n
  vw : bar.vw = jackson.asDouble m.vw

/-- The JSON number a member is. -/
def isNumber : Json → Prop
  | .int _ => True
  | .float _ => True
  | _ => False

/-- The integer a member is: JSON Schema counts a number without a fraction. -/
def integer? : Json → Option Int
  | .int n => some n
  | .float x => Double.integer? x
  | _ => none

def FitsLong (j : Json) : Prop := ∃ n, integer? j = some n ∧ -2 ^ 63 ≤ n ∧ n < 2 ^ 63

/-- An item satisfies `alpaca-bar-frame.schema.json`, with `v` and `n` in the range
of a `long`. -/
structure Conforms (m : Members) : Prop where
  T : m.T = .str "b"
  S : ∃ s, m.S = .str s
  o : isNumber m.o
  h : isNumber m.h
  l : isNumber m.l
  c : isNumber m.c
  v : FitsLong m.v
  t : ∃ s, m.t = .str s
  n : FitsLong m.n
  vw : isNumber m.vw

/-- A double is the value of a JSON number: the nearest one of an integer literal. -/
def IsDouble (j : Json) (x : Float) : Prop := j = .float x ∨ ∃ n, j = .int n ∧ x = Float.ofInt n

/-- Every field of a bar is the value of its member. -/
structure Faithful (m : Members) (bar : AlpacaBar) : Prop where
  T : m.T = .str bar.T
  S : m.S = .str bar.S
  o : IsDouble m.o bar.o
  h : IsDouble m.h bar.h
  l : IsDouble m.l bar.l
  c : IsDouble m.c bar.c
  v : integer? m.v = some bar.v
  t : m.t = .str bar.t
  n : integer? m.n = some bar.n
  vw : IsDouble m.vw bar.vw

/-! ### What is accepted -/

section Accepted

variable {jackson}
variable {node j : Json} {m : Members} {bar : AlpacaBar}

theorem required_eq_ok {name : String} {value : Json} :
    required node name = .ok value ↔ node.get? name = some value := by
  unfold required
  split <;> simp_all

theorem members_eq_ok : members node = .ok m ↔ HasMembers node m := by
  simp only [members, Result.bind_eq_ok, required_eq_ok]
  constructor
  · rintro ⟨T, hT, S, hS, o, ho, h, hh, l, hl, c, hc, v, hv, t, ht, n, hn, vw, hvw, hm⟩
    cases hm
    exact ⟨hT, hS, ho, hh, hl, hc, hv, ht, hn, hvw⟩
  · intro hm
    exact ⟨_, hm.T, _, hm.S, _, hm.o, _, hm.h, _, hm.l, _, hm.c, _, hm.v, _, hm.t, _, hm.n, _,
      hm.vw, rfl⟩

theorem new_eq_ok {T S t : String} {o h l c vw : Float} {v n : Int} :
    new T S o h l c v t n vw = .ok bar ↔ (T = bar.T ∧ S = bar.S ∧ o = bar.o ∧ h = bar.h ∧
      l = bar.l ∧ c = bar.c ∧ v = bar.v ∧ t = bar.t ∧ n = bar.n ∧ vw = bar.vw) := by
  unfold new
  constructor
  · intro hnew
    split at hnew
    · split at hnew
      · cases hnew
        simp
      · simp at hnew
    · simp at hnew
  · rintro ⟨rfl, rfl, rfl, rfl, rfl, rfl, rfl, rfl, rfl, rfl⟩
    rw [dif_pos ⟨bar.isBar, bar.named⟩, dif_pos bar.timed]

/-- The text of a value that is not a string is neither `b` nor an instant. -/
theorem asText_chars (hj : ∀ s, j ≠ .str s) {x : Char} (hx : x ∈ (jackson.asText j).toList) :
    x ≠ 'b' ∧ x ≠ ':' := by
  have hwords : ∀ word ∈ ["null", "true", "false"], ∀ c ∈ word.toList, c ≠ 'b' ∧ c ≠ ':' := by
    simp
  cases j with
  | null => exact hwords "null" (by simp) x hx
  | bool b =>
      cases b with
      | false => exact hwords "false" (by simp) x hx
      | true => exact hwords "true" (by simp) x hx
  | int n =>
      rcases Scan.isDigit_or_minus_of_mem_toString hx with hdigit | rfl
      · constructor
        · rintro rfl
          simp at hdigit
        · rintro rfl
          simp at hdigit
      · decide
  | float y => exact jackson.doubleText_chars y x hx
  | str s => exact absurd rfl (hj s)
  | arr _ => simp [Jackson.asText] at hx
  | obj _ => simp [Jackson.asText] at hx

theorem eq_str_of_asText {x : Char} (hx : x ∈ (jackson.asText j).toList)
    (hmark : x = 'b' ∨ x = ':') : j = .str (jackson.asText j) := by
  by_cases hj : ∃ s, j = .str s
  · obtain ⟨s, rfl⟩ := hj
    rfl
  · obtain ⟨hb, hcolon⟩ := asText_chars (fun s hs => hj ⟨s, hs⟩) hx
    rcases hmark with rfl | rfl
    · exact absurd rfl hb
    · exact absurd rfl hcolon

theorem decodeItem_eq_ok :
    decodeItem jackson node = .ok bar ↔ ∃ m, HasMembers node m ∧ Coerced jackson m bar := by
  simp only [decodeItem, Result.bind_eq_ok, members_eq_ok, new_eq_ok]
  constructor
  · rintro ⟨m, hm, hT, hS, ho, hh, hl, hc, hv, ht, hn, hvw⟩
    refine ⟨m, hm, ?_, hS.symm, ho.symm, hh.symm, hl.symm, hc.symm, hv.symm, ?_, hn.symm, hvw.symm⟩
    · rw [← hT]
      exact eq_str_of_asText (x := 'b') (by rw [hT, bar.isBar]; decide) (.inl rfl)
    · rw [← ht]
      exact eq_str_of_asText (x := ':') (by rw [ht]; exact Instant.colon_of_parse bar.timed)
        (.inr rfl)
  · rintro ⟨m, hm, hc⟩
    refine ⟨m, hm, ?_, hc.S.symm, hc.o.symm, hc.h.symm, hc.l.symm, hc.c.symm, hc.v.symm, ?_,
      hc.n.symm, hc.vw.symm⟩
    · rw [hc.T, Jackson.asText]
    · rw [hc.t, Jackson.asText]

theorem readTree_eq_ok {payload : List UInt8} : readTree jackson payload = .ok (some j) ↔
    ∃ rest, JsonReader.first Jackson.dialect (jackson.characters payload) = .ok (j, rest) := by
  unfold readTree JsonReader.first
  cases htokens : JsonReader.lex Jackson.dialect .blank (jackson.characters payload) with
  | nil => simp [JsonReader.read]
  | cons token tokens =>
      dsimp only
      split <;> simp_all

/-- The payloads that are decoded: the first value is an array, and every item
has the ten members with `T` and `t` right. -/
theorem decodeFrame_eq_ok {payload : List UInt8} {bars : List AlpacaBar} :
    decodeFrame jackson payload = .ok bars ↔ ∃ items rest,
      JsonReader.first Jackson.dialect (jackson.characters payload) = .ok (.arr items, rest) ∧
      List.Forall₂ (fun node bar => ∃ m, HasMembers node m ∧ Coerced jackson m bar) items bars := by
  simp only [decodeFrame, Result.bind_eq_ok]
  constructor
  · rintro ⟨root, hroot, hbars⟩
    split at hbars
    · rename_i items
      obtain ⟨rest, hfirst⟩ := readTree_eq_ok.mp hroot
      refine ⟨items, rest, hfirst, ?_⟩
      exact (Result.mapM_eq_ok.mp hbars).imp fun _ _ h => decodeItem_eq_ok.mp h
    · simp at hbars
  · rintro ⟨items, rest, hfirst, hitems⟩
    refine ⟨some (.arr items), readTree_eq_ok.mpr ⟨rest, hfirst⟩, ?_⟩
    exact Result.mapM_eq_ok.mpr (hitems.imp fun _ _ h => decodeItem_eq_ok.mpr h)

theorem asDouble_isDouble (h : isNumber j) : IsDouble j (jackson.asDouble j) := by
  cases j <;> simp_all [isNumber, IsDouble, Jackson.asDouble]

theorem asLong_of_fitsLong (h : FitsLong j) : integer? j = some (jackson.asLong j) := by
  obtain ⟨n, hn, hlow, hhigh⟩ := h
  cases j with
  | int k =>
      cases hn
      rw [Jackson.asLong, toLong_of_range ⟨hlow, hhigh⟩]
      rfl
  | float x =>
      have htruncate := Double.truncate_of_integer? hn 0 (-2 ^ 63) (2 ^ 63 - 1)
      rw [hn, Jackson.asLong, Jackson.castLong, htruncate]
      congr 1
      omega
  | null => simp [integer?] at hn
  | bool b => simp [integer?] at hn
  | str s => simp [integer?] at hn
  | arr _ => simp [integer?] at hn
  | obj _ => simp [integer?] at hn

/-- A conforming item is copied faithfully. -/
theorem Coerced.faithful (hcoerced : Coerced jackson m bar) (hm : Conforms m) : Faithful m bar where
  T := hcoerced.T
  S := by
    obtain ⟨s, hs⟩ := hm.S
    rw [hcoerced.S, hs]
    rfl
  o := hcoerced.o ▸ asDouble_isDouble hm.o
  h := hcoerced.h ▸ asDouble_isDouble hm.h
  l := hcoerced.l ▸ asDouble_isDouble hm.l
  c := hcoerced.c ▸ asDouble_isDouble hm.c
  v := hcoerced.v ▸ asLong_of_fitsLong hm.v
  t := hcoerced.t
  n := hcoerced.n ▸ asLong_of_fitsLong hm.n
  vw := hcoerced.vw ▸ asDouble_isDouble hm.vw

/-- What an accepted payload is: it begins with one array, whose items are in
order the bars; items that conform to the contract are copied faithfully. -/
theorem decodeFrame_accepts {payload : List UInt8} {bars : List AlpacaBar}
    (h : decodeFrame jackson payload = .ok bars) : ∃ items rest,
      JsonReader.first Jackson.dialect (jackson.characters payload) = .ok (.arr items, rest) ∧
      List.Forall₂ (fun node bar => ∃ m, HasMembers node m ∧ Coerced jackson m bar ∧
        (Conforms m → Faithful m bar)) items bars := by
  obtain ⟨items, rest, hfirst, hitems⟩ := decodeFrame_eq_ok.mp h
  refine ⟨items, rest, hfirst, hitems.imp ?_⟩
  rintro node bar ⟨m, hm, hcoerced⟩
  exact ⟨m, hm, hcoerced, hcoerced.faithful⟩

/-- The payload is one array and nothing else, and every item satisfies the
contract and is copied faithfully. -/
def OnlyContract (jackson : Jackson) (payload : List UInt8) (bars : List AlpacaBar) : Prop :=
  ∃ items, JsonReader.whole Jackson.dialect (jackson.characters payload) = .ok (.arr items) ∧
    List.Forall₂ (fun node bar => ∃ m, HasMembers node m ∧ Conforms m ∧ Faithful m bar) items bars

end Accepted

/-- UTF-8 payloads, and no number in any text. -/
def sampleJackson : Jackson where
  characters := JsonReader.Utf8.decode .start
  errorClass _ := "com.fasterxml.jackson.core.JsonParseException"
  textAsDouble _ := none
  textAsLong _ := none
  doubleText _ := "0.0"
  doubleText_chars _ := by simp

def samplePayload (open_ : String) : List UInt8 :=
  ("[\x7b\"T\":\"b\",\"S\":\"SPY\",\"o\":" ++ open_ ++ ",\"h\":3,\"l\":1,\"c\":2,\"v\":100," ++
    "\"t\":\"2026-01-02T15:04:00Z\",\"n\":7,\"vw\":2\x7d]").toUTF8.data.toList

theorem decodeFrame_accepts_sample : ∃ bars items rest,
    decodeFrame sampleJackson (samplePayload "2") = .ok bars ∧
      JsonReader.first Jackson.dialect (sampleJackson.characters (samplePayload "2")) =
        .ok (.arr items, rest) ∧ items.length = bars.length := by
  have hdecode : ∃ bars, decodeFrame sampleJackson (samplePayload "2") = .ok bars := ⟨_, rfl⟩
  obtain ⟨bars, hbars⟩ := hdecode
  obtain ⟨items, rest, hfirst, hitems⟩ := decodeFrame_accepts hbars
  exact ⟨bars, items, rest, hbars, hfirst, hitems.length_eq⟩

/-- A price of `null` is accepted. -/
theorem nullPrice_accepted : ∃ bars, decodeFrame sampleJackson (samplePayload "null") = .ok bars ∧
    ¬ OnlyContract sampleJackson (samplePayload "null") bars := by
  refine ⟨_, rfl, ?_⟩
  rintro ⟨items, hwhole, hitems⟩
  have hread : JsonReader.whole Jackson.dialect (sampleJackson.characters (samplePayload "null")) =
      .ok (.arr [.obj [("T", .str "b"), ("S", .str "SPY"), ("o", .null), ("h", .int 3),
        ("l", .int 1), ("c", .int 2), ("v", .int 100), ("t", .str "2026-01-02T15:04:00Z"),
        ("n", .int 7), ("vw", .int 2)]]) := rfl
  rw [hread] at hwhole
  cases hwhole
  cases hitems with
  | cons hitem _ =>
      obtain ⟨m, hm, hconforms, _⟩ := hitem
      have ho : some Json.null = some m.o := hm.o
      have hnumber := hconforms.o
      rw [← Option.some.inj ho] at hnumber
      exact hnumber

end AlpacaBar

end Lakehouse.Loader
