/-
The Python built-ins the dashboard exporter uses, on JSON values.

A JSON value stands for the Python value `json.loads` makes of it; a `Dict` is
the content of a dict. What may raise is in `Py`, with the class of the
exception. `Python` holds what no source text fixes about the interpreter: its
recursion limits, the Unicode table of printable characters, and the shortest
decimal of a double.

* `get`, `getOr` — `dict.get` on a value that may not be a dict.
* `loads` — `json.loads`.
* `equal`, `equalWithin` — `==`, without and with the limit on its recursion.
* `str` — `str(value)`.
* `isDecimal`, `intOf`, `floatOf` — the conversions to numbers.
-/

import Lakehouse.Lib.Casing
import Lakehouse.Lib.Double
import Lakehouse.Lib.JsonReader

namespace Lakehouse.Dashboard

/-- The exceptions of the exporter's expressions. -/
inductive PyError where
  | attributeError
  | typeError
  | valueError
  | jsonDecodeError
  | overflowError
  | osError
  | recursionError
deriving DecidableEq, Repr

/-- `except ValueError` also catches the subclass `JSONDecodeError`. -/
def PyError.isValueError : PyError → Bool
  | .valueError | .jsonDecodeError => true
  | _ => false

abbrev Py := Except PyError

structure Python where
  jsonDepth : Nat
  /-- The nesting `repr` goes down. -/
  reprDepth : Nat
  /-- The nesting `==` goes down. -/
  eqDepth : Nat
  /-- `str.isprintable` outside ASCII. -/
  printable : Char → Bool
  /-- `repr` of a float. -/
  floatRepr : Float → String

/-! ### Dictionaries -/

abbrev Dict := List (String × Json)

/-- `d.get(name, default)`. -/
def dictGetOr (d : Dict) (name : String) (default : Json) : Json :=
  (Json.lookup name d).getD default

/-- `d.get(name)`. -/
def dictGet (d : Dict) (name : String) : Json := dictGetOr d name .null

theorem dictGet_eq_iff {d : Dict} {name : String} {value : Json} (h : value ≠ .null) :
    dictGet d name = value ↔ Json.lookup name d = some value := by
  unfold dictGet dictGetOr
  cases Json.lookup name d with
  | none => simp [h.symm]
  | some v => simp

/-- `value.get(name, default)`. -/
def getOr (value : Json) (name : String) (default : Json) : Py Json :=
  match value with
  | .obj d => .ok (dictGetOr d name default)
  | _ => .error .attributeError

/-- `value.get(name)`. -/
def get (value : Json) (name : String) : Py Json := getOr value name .null

@[simp] theorem dictGet_obj (d : Dict) (name : String) :
    get (.obj d) name = .ok (dictGet d name) := rfl

@[simp] theorem dictGetOr_obj (d : Dict) (name : String) (default : Json) :
    getOr (.obj d) name default = .ok (dictGetOr d name default) := rfl

/-- The truth value. -/
def truthy : Json → Bool
  | .null => false
  | .bool b => b
  | .int n => n != 0
  | .float x => !(x == 0)
  | .str s => s != ""
  | .arr xs => !xs.isEmpty
  | .obj d => !d.isEmpty

/-- Whether a value can be an element of a set. -/
def hashable : Json → Bool
  | .arr _ | .obj _ => false
  | _ => true

/-! ### `json.loads` -/

/-- The integer-string conversion limit. -/
def maxStrDigits : Nat := 4300

def Python.json (py : Python) : JsonReader.Dialect :=
  ⟨true, some maxStrDigits, none, none, some py.jsonDepth⟩

/-- `json.loads(text)`. Over-long integers and over-deep values raise, but not a
`JSONDecodeError`. -/
def Python.loads (py : Python) (text : String) : Py Json :=
  match JsonReader.whole py.json text.toList with
  | .ok value => .ok value
  | .error .malformed | .error .name => .error .jsonDecodeError
  | .error .digits => .error .valueError
  | .error .depth => .error .recursionError

/-! ### `==` -/

/-- The integer an `int` or a `bool` is. -/
def asInt? : Json → Option Int
  | .int n => some n
  | .bool b => some (if b then 1 else 0)
  | _ => none

/-- Numbers compare by value, across their types. -/
def equalNumbers (a b : Json) : Bool :=
  match asInt? a, asInt? b with
  | some m, some n => m == n
  | some m, none => match b with
      | .float y => Double.integer? y == some m
      | _ => false
  | none, some n => match a with
      | .float x => Double.integer? x == some n
      | _ => false
  | none, none => match a, b with
      | .float x, .float y => x == y
      | _, _ => false

/-- Every `NaN` of `json.loads` is one object, and the items of containers that are one
object count as equal. -/
def sameNaN : Json → Json → Bool
  | .float x, .float y => x.isNaN && y.isNaN
  | _, _ => false

mutual
/-- `a == b`. -/
def equal : Json → Json → Bool
  | .null, .null => true
  | .str s, .str t => s == t
  | .arr xs, .arr ys => equalItems xs ys
  | .obj d, .obj e => d.length == e.length && equalMembers d e
  | a, b => equalNumbers a b

def equalItems : List Json → List Json → Bool
  | [], [] => true
  | x :: xs, y :: ys => (sameNaN x y || equal x y) && equalItems xs ys
  | _, _ => false

def equalMembers : Dict → Dict → Bool
  | [], _ => true
  | (name, x) :: d, e =>
      match Json.lookup name e with
      | some y => (sameNaN x y || equal x y) && equalMembers d e
      | none => false
end

mutual
/-- `a == b`, with `depth` levels of nesting left. -/
def equalWithin : Json → Json → Nat → Py Bool
  | .arr _, .arr _, 0 => .error .recursionError
  | .arr xs, .arr ys, depth + 1 =>
      if xs.length = ys.length then equalItemsWithin xs ys depth else .ok false
  | .obj _, .obj _, 0 => .error .recursionError
  | .obj d, .obj e, depth + 1 =>
      if d.length = e.length then equalMembersWithin d e depth else .ok false
  | .null, .null, _ => .ok true
  | .str s, .str t, _ => .ok (s == t)
  | a, b, _ => .ok (equalNumbers a b)

def equalItemsWithin : List Json → List Json → Nat → Py Bool
  | x :: xs, y :: ys, depth => do
      let same ← equalWithin x y depth
      if sameNaN x y || same then equalItemsWithin xs ys depth else return false
  | _, _, _ => .ok true

def equalMembersWithin : Dict → Dict → Nat → Py Bool
  | [], _, _ => .ok true
  | (name, x) :: d, e, depth =>
      match Json.lookup name e with
      | some y => do
          let same ← equalWithin x y depth
          if sameNaN x y || same then equalMembersWithin d e depth else return false
      | none => .ok false
end

/-! ### `str` -/

def hexText (width n : Nat) : List Char :=
  let digits := Nat.toDigits 16 n
  List.replicate (width - digits.length) '0' ++ digits

/-- How `repr` writes a character of a string between two `mark`s. -/
def Python.escape (py : Python) (mark c : Char) : List Char :=
  if c = mark ∨ c = '\\' then ['\\', c]
  else if c = '\n' then ['\\', 'n']
  else if c = '\r' then ['\\', 'r']
  else if c = '\t' then ['\\', 't']
  else if c.toNat < 0x20 ∨ c.toNat = 0x7F then '\\' :: 'x' :: hexText 2 c.toNat
  else if c.toNat < 0x80 ∨ py.printable c then [c]
  else if c.toNat < 0x100 then '\\' :: 'x' :: hexText 2 c.toNat
  else if c.toNat < 0x10000 then '\\' :: 'u' :: hexText 4 c.toNat
  else '\\' :: 'U' :: hexText 8 c.toNat

def Python.quote (py : Python) (s : String) : List Char :=
  let mark := if '\x27' ∈ s.toList ∧ '\x22' ∉ s.toList then '\x22' else '\x27'
  mark :: s.toList.flatMap (py.escape mark) ++ [mark]

/-- `str` of an int, which is limited as reading one is. -/
def intText (n : Int) : Py (List Char) :=
  if (Nat.toDigits 10 n.natAbs).length ≤ maxStrDigits then .ok (toString n).toList
  else .error .valueError

mutual
/-- `repr(value)`, with `depth` levels of nesting left. -/
def Python.repr (py : Python) : Json → Nat → Py (List Char)
  | .null, _ => .ok "None".toList
  | .bool b, _ => .ok (if b then "True".toList else "False".toList)
  | .int n, _ => intText n
  | .float x, _ => .ok (py.floatRepr x).toList
  | .str s, _ => .ok (py.quote s)
  | .arr _, 0 => .error .recursionError
  | .arr xs, depth + 1 => do
      let texts ← py.reprItems xs depth
      .ok ('[' :: ", ".toList.intercalate texts ++ [']'])
  | .obj _, 0 => .error .recursionError
  | .obj d, depth + 1 => do
      let texts ← py.reprMembers d depth
      .ok ('{' :: ", ".toList.intercalate texts ++ ['}'])

def Python.reprItems (py : Python) : List Json → Nat → Py (List (List Char))
  | [], _ => .ok []
  | x :: xs, depth => do
      let text ← py.repr x depth
      let texts ← py.reprItems xs depth
      .ok (text :: texts)

def Python.reprMembers (py : Python) : Dict → Nat → Py (List (List Char))
  | [], _ => .ok []
  | (name, x) :: d, depth => do
      let text ← py.repr x depth
      let texts ← py.reprMembers d depth
      .ok ((py.quote name ++ ": ".toList ++ text) :: texts)
end

/-- `str(value)`. -/
def Python.str (py : Python) : Json → Py String
  | .str s => .ok s
  | value => (py.repr value py.reprDepth).map String.ofList

/-- `needle in s`. -/
def contains (s needle : String) : Bool :=
  s.toList.tails.any fun tail => needle.toList.isPrefixOf tail

def startsWith (s start : String) : Bool := start.toList.isPrefixOf s.toList

/-! ### Numbers -/

/-- The zeros of the decimal digits of Unicode 15.0, each followed by its nine
others. -/
def decimalZeros : List Nat :=
  [0x30, 0x660, 0x6F0, 0x7C0, 0x966, 0x9E6, 0xA66, 0xAE6, 0xB66, 0xBE6, 0xC66, 0xCE6, 0xD66, 0xDE6,
    0xE50, 0xED0, 0xF20, 0x1040, 0x1090, 0x17E0, 0x1810, 0x1946, 0x19D0, 0x1A80, 0x1A90, 0x1B50,
    0x1BB0, 0x1C40, 0x1C50, 0xA620, 0xA8D0, 0xA900, 0xA9D0, 0xA9F0, 0xAA50, 0xABF0, 0xFF10, 0x104A0,
    0x10D30, 0x11066, 0x110F0, 0x11136, 0x111D0, 0x112F0, 0x11450, 0x114D0, 0x11650, 0x116C0,
    0x11730, 0x118E0, 0x11950, 0x11C50, 0x11D50, 0x11DA0, 0x11F50, 0x16A60, 0x16AC0, 0x16B50,
    0x1D7CE, 0x1D7D8, 0x1D7E2, 0x1D7EC, 0x1D7F6, 0x1E140, 0x1E2F0, 0x1E4F0, 0x1E950, 0x1FBF0]

/-- The ASCII digit with the value of a decimal digit. -/
def decimal? (c : Char) : Option Char :=
  (decimalZeros.find? fun low => low ≤ c.toNat ∧ c.toNat < low + 10).map fun low =>
    Char.ofNat ('0'.toNat + (c.toNat - low))

/-- `s.isdecimal()`. -/
def isDecimal (s : String) : Bool := s != "" && s.toList.all fun c => (decimal? c).isSome

/-- `int(s)` of a decimal `s`. -/
def intOf (s : String) : Py Int :=
  if s.toList.length ≤ maxStrDigits then .ok (JsonReader.natOf (s.toList.filterMap decimal?))
  else .error .valueError

/-- White space outside ASCII. -/
def isUnicodeSpace (c : Char) : Bool :=
  c.toNat ∈ [0x85, 0xA0, 0x1680, 0x2000, 0x2001, 0x2002, 0x2003, 0x2004, 0x2005, 0x2006, 0x2007,
    0x2008, 0x2009, 0x200A, 0x2028, 0x2029, 0x202F, 0x205F, 0x3000]

/-- The ASCII form of a character of a numeral. -/
def numeralChar (c : Char) : Char :=
  if c.toNat < 0x80 then c
  else if isUnicodeSpace c then ' '
  else (decimal? c).getD '?'

def isAsciiSpace (c : Char) : Bool := c = ' ' || (0x9 ≤ c.toNat && c.toNat ≤ 0xD)

/-- The text without its underscores, each of which stands between two digits. -/
def withoutUnderscores (previous : Char) : List Char → Option (List Char)
  | [] => if previous = '_' then none else some []
  | c :: rest =>
      if c = '_' then
        if previous.isDigit then withoutUnderscores c rest else none
      else if previous = '_' ∧ !c.isDigit then none
      else (withoutUnderscores c rest).map (c :: ·)

/-- An unsigned numeral with at least one digit beside the point. -/
def unsignedFloat (cs : List Char) : Option Float :=
  if cs.map Char.toLower ∈ ["inf".toList, "infinity".toList] then some (1.0 / 0.0)
  else if cs.map Char.toLower = "nan".toList then some (0.0 / 0.0)
  else
    let whole := cs.takeWhile Char.isDigit
    let rest := cs.dropWhile Char.isDigit
    let (frac, rest) := match rest with
      | '.' :: rest => (rest.takeWhile Char.isDigit, rest.dropWhile Char.isDigit)
      | rest => ([], rest)
    if whole ++ frac = [] then none
    else (JsonReader.exponent rest).map fun exp =>
      let (negative, digits) := exp.getD (false, [])
      let e : Int := if negative then -(JsonReader.natOf digits : Int) else JsonReader.natOf digits
      JsonReader.scientific (JsonReader.natOf (whole ++ frac)) (e - frac.length)

/-- `float(s)`. -/
def parseFloat (s : String) : Option Float := do
  let cs := (s.toList.map numeralChar).dropWhile isAsciiSpace
  let cs := (cs.reverse.dropWhile isAsciiSpace).reverse
  let cs ← withoutUnderscores ' ' cs
  match cs with
  | '-' :: rest => (unsignedFloat rest).map Float.neg
  | '+' :: rest => unsignedFloat rest
  | rest => unsignedFloat rest

/-- `float(n)`; infinite where that raises. -/
def floatOfInt (n : Int) : Float :=
  if n < 0 then (Double.ofRatio n.natAbs 1).neg else Double.ofRatio n.natAbs 1

/-- `float(value)`. -/
def floatOf : Json → Py Float
  | .float x => .ok x
  | .int n => if (floatOfInt n).isInf then .error .overflowError else .ok (floatOfInt n)
  | .bool b => .ok (if b then 1 else 0)
  | .str s => match parseFloat s with
      | some x => .ok x
      | none => .error .valueError
  | _ => .error .typeError

/-- `n / d` of two ints, neither negative. -/
def trueDiv (n d : Nat) : Py Float :=
  if (Double.ofRatio n d).isInf then .error .overflowError else .ok (Double.ofRatio n d)

end Lakehouse.Dashboard
