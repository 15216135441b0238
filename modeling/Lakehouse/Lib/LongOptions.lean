/-
A command line of long options with one argument each, and `--help`.

The reading is that of Python's `argparse`: every text is first classified as an
option, an argument or neither, and the options then take the argument behind
them. A unique beginning of an option's name stands for it; a text with a leading
hyphen is still an argument when it is a negative number or has a blank.

* `parse` — the options given, in order, or the error of the parser.
* `IsArgument` — the texts an option takes as its argument.
* `parse_pairs` — options of the parser with their arguments are read back.
-/

import Mathlib.Data.List.TakeWhile

namespace LongOptions

/-- An option, with the hyphens in its name. -/
structure Spec where
  name : String
  required : Bool
  /-- The conversion of the argument succeeds. -/
  accepts : String → Bool

structure Parser where
  specs : List Spec
  /-- The digits of negative numbers. -/
  isDigit : Char → Bool

inductive Error where
  | ambiguous (text : String)
  | expectedArgument (name : String)
  | ignoredArgument (name : String)
  | invalidValue (name value : String)
  | help
  | required (names : List String)
  | unrecognized (texts : List String)
deriving DecidableEq, Repr

inductive Token where
  | argument (text : String)
  | dashes
  | option (spec : Spec) (explicit : Option String)
  | help (explicit : Option String)
  | unknown (text : String)

namespace Parser

variable (parser : Parser)

/-- `-` and digits, with at most one point among them and a digit behind it. -/
def isNegativeNumber (text : List Char) : Bool :=
  match text with
  | '-' :: rest =>
      let number := if rest.getLast? = some '\n' then rest.dropLast else rest
      let fraction := number.dropWhile parser.isDigit
      match fraction with
      | [] => number != []
      | '.' :: digits => digits != [] && digits.all parser.isDigit
      | _ => false
  | _ => false

/-- The part in front of the first `=`, and the one behind it. -/
def atEquals (text : String) : String × Option String :=
  match text.toList.dropWhile (· ≠ '=') with
  | [] => (text, none)
  | _ :: value => (String.ofList (text.toList.takeWhile (· ≠ '=')), some (String.ofList value))

/-- An option or `--help`, under its whole name. -/
def named (name : String) (explicit : Option String) : Option Token :=
  if name = "--help" then some (.help explicit)
  else (parser.specs.find? fun spec => spec.name = name).map fun spec => .option spec explicit

/-- Those whose name begins with a text. -/
def beginning (start : String) (explicit : Option String) : List Token :=
  let help : List Token :=
    if start.toList.isPrefixOf "--help".toList then [.help explicit] else []
  help ++ (parser.specs.filter fun spec => start.toList.isPrefixOf spec.name.toList).map
    fun spec => .option spec explicit

/-- What a text behind `-h` does: further `h`s are the same option again. -/
def shortHelp (rest : List Char) : Token :=
  if rest.all (· = 'h') then .help none else .help (some (String.ofList rest))

/-- Neither the name of an option nor the beginning of one. -/
def unnamed (text : String) : Token :=
  if parser.isNegativeNumber text.toList ∨ ' ' ∈ text.toList then .argument text else .unknown text

/-- A text with a leading hyphen that is not the whole name of an option. -/
def abbreviated (text : String) : Except Error Token :=
  match text.toList with
  | '-' :: '-' :: _ =>
      match parser.beginning (atEquals text).1 (atEquals text).2 with
      | [] => .ok (parser.unnamed text)
      | [token] => .ok token
      | _ => .error (.ambiguous text)
  | '-' :: 'h' :: '=' :: rest => .ok (if rest = [] then .help (some "") else shortHelp rest)
  | '-' :: 'h' :: rest => .ok (shortHelp rest)
  | _ => .ok (parser.unnamed text)

/-- A hyphen and more. -/
def looksOptional (text : List Char) : Bool :=
  match text with
  | '-' :: _ :: _ => true
  | _ => false

/-- The class of a text other than `--`. -/
def classify (text : String) : Except Error Token :=
  if looksOptional text.toList then
    match parser.named text none with
    | some token => .ok token
    | none =>
        match (atEquals text).2.bind fun value => parser.named (atEquals text).1 (some value) with
        | some token => .ok token
        | none => parser.abbreviated text
  else .ok (.argument text)

/-- Behind `--`, everything is an argument. -/
def tokens : List String → Except Error (List Token)
  | [] => .ok []
  | text :: rest =>
      if text = "--" then .ok (.dashes :: rest.map .argument)
      else do
        let token ← parser.classify text
        let rest ← tokens rest
        return token :: rest

/-- The options with their arguments, and the texts that belong to none. -/
structure Found where
  given : List (String × String)
  extras : List String

def Found.give (found : Found) (name value : String) : Found :=
  { found with given := (name, value) :: found.given }

def Found.leave (found : Found) (text : String) : Found :=
  { found with extras := text :: found.extras }

def consume : List Token → Except Error Found
  | [] => .ok ⟨[], []⟩
  | .option spec (some value) :: rest =>
      if spec.accepts value then do
        let found ← consume rest
        return found.give spec.name value
      else .error (.invalidValue spec.name value)
  | .option spec none :: .argument value :: rest =>
      if spec.accepts value then do
        let found ← consume rest
        return found.give spec.name value
      else .error (.invalidValue spec.name value)
  | .option spec none :: _ => .error (.expectedArgument spec.name)
  | .help none :: _ => .error .help
  | .help (some _) :: _ => .error (.ignoredArgument "-h/--help")
  | .argument text :: rest => do
      let found ← consume rest
      return found.leave text
  | .dashes :: rest => do
      let found ← consume rest
      return found.leave "--"
  | .unknown text :: rest => do
      let found ← consume rest
      return found.leave text

/-- The required options that are not given. -/
def missing (given : List (String × String)) : List String :=
  (parser.specs.filter fun spec => spec.required && !(given.map Prod.fst).contains spec.name).map
    Spec.name

def parse (argv : List String) : Except Error (List (String × String)) := do
  let tokens ← parser.tokens argv
  let found ← consume tokens
  if parser.missing found.given ≠ [] then .error (.required (parser.missing found.given))
  else if found.extras ≠ [] then .error (.unrecognized found.extras)
  else .ok found.given

/-! ### Options with their arguments -/

variable {parser}

/-- An option takes the text as its argument. -/
def IsArgument (parser : Parser) (text : String) : Prop :=
  text ≠ "--" ∧ parser.classify text = .ok (.argument text)

/-- The parser knows the option by its whole name. -/
def Knows (parser : Parser) (spec : Spec) : Prop :=
  spec.name ≠ "--" ∧ parser.classify spec.name = .ok (.option spec none)

theorem isArgument_of_head {text : String} {c : Char} {rest : List Char}
    (htext : text.toList = c :: rest) (h : c ≠ '-') : parser.IsArgument text := by
  have hplain : looksOptional text.toList = false := by
    rw [htext]
    unfold looksOptional
    split
    · rename_i heq
      exact absurd (List.cons.inj heq).1 h
    · rfl
  constructor
  · rintro rfl
    exact h (List.cons.inj htext).1.symm
  · rw [classify, hplain]
    rfl

theorem isNegativeNumber_digits {digits : List Char} (hne : digits ≠ [])
    (hdigits : ∀ c ∈ digits, parser.isDigit c = true) (hline : parser.isDigit '\n' = false) :
    parser.isNegativeNumber ('-' :: digits) = true := by
  have hlast : digits.getLast? ≠ some '\n' := by
    intro hlast
    have hdigit := hdigits _ (List.mem_of_getLast? hlast)
    rw [hline] at hdigit
    cases hdigit
  have hdrop : digits.dropWhile parser.isDigit = [] := List.dropWhile_eq_nil_iff.mpr hdigits
  simp only [isNegativeNumber, if_neg hlast, hdrop, bne_iff_ne, ne_eq, hne, not_false_eq_true]

theorem named_eq_none {text : String} (hspecs : ∀ spec ∈ parser.specs, "--".toList <+: spec.name.toList)
    (h : ¬ "--".toList <+: text.toList) (explicit : Option String) :
    parser.named text explicit = none := by
  have hhelp : text ≠ "--help" := by
    rintro rfl
    exact h (by decide)
  have hfind : parser.specs.find? (fun spec => spec.name = text) = none := by
    refine List.find?_eq_none.mpr fun spec hspec heq => h ?_
    rw [← of_decide_eq_true heq]
    exact hspecs spec hspec
  rw [named, if_neg hhelp, hfind, Option.map_none]

/-- No option is a negative number, so an option takes one as its argument. -/
theorem isArgument_of_negative {text : String} {d : Char} {rest : List Char}
    (htext : text.toList = '-' :: d :: rest)
    (hdigits : ∀ c ∈ d :: rest, parser.isDigit c = true)
    (hother : ∀ c ∈ ['-', 'h', '=', '\n'], parser.isDigit c = false)
    (hspecs : ∀ spec ∈ parser.specs, "--".toList <+: spec.name.toList) :
    parser.IsArgument text := by
  have hd : ∀ c ∈ ['-', 'h', '=', '\n'], d ≠ c := by
    rintro c hc rfl
    exact absurd (hdigits d List.mem_cons_self) (Bool.eq_false_iff.mp (hother d hc))
  have hplain : ¬ "--".toList <+: text.toList := by
    rw [htext]
    simp [(hd '-' (by simp)).symm]
  have hequals : atEquals text = (text, none) := by
    have hdrop : text.toList.dropWhile (· ≠ '=') = [] := by
      refine List.dropWhile_eq_nil_iff.mpr fun c hc => ?_
      rw [htext] at hc
      rcases List.mem_cons.mp hc with rfl | hc
      · rfl
      · simp only [decide_eq_true_eq]
        rintro rfl
        exact absurd (hdigits _ hc) (Bool.eq_false_iff.mp (hother '=' (by simp)))
    rw [atEquals, hdrop]
  have hnegative : parser.isNegativeNumber text.toList = true :=
    htext ▸ isNegativeNumber_digits (List.cons_ne_nil d rest) hdigits (hother '\n' (by simp))
  have habbreviated : parser.abbreviated text = .ok (.argument text) := by
    have hunnamed : parser.unnamed text = .argument text := if_pos (.inl hnegative)
    rw [abbreviated, htext]
    split
    · rename_i heq
      exact absurd (List.cons.inj (List.cons.inj heq).2).1 (hd '-' (by simp))
    · rename_i heq
      exact absurd (List.cons.inj (List.cons.inj heq).2).1 (hd 'h' (by simp))
    · rename_i heq
      exact absurd (List.cons.inj (List.cons.inj heq).2).1 (hd 'h' (by simp))
    · rw [hunnamed]
  constructor
  · rintro rfl
    exact hplain (List.prefix_refl _)
  · rw [classify, named_eq_none hspecs hplain, hequals, Option.bind_none, habbreviated, htext]
    rfl

/-- Options the parser knows are read with the arguments behind them. -/
theorem tokens_pairs {given : List (Spec × String)}
    (h : ∀ pair ∈ given, parser.Knows pair.1 ∧ parser.IsArgument pair.2) :
    parser.tokens (given.flatMap fun pair => [pair.1.name, pair.2]) =
      .ok (given.flatMap fun pair => [.option pair.1 none, .argument pair.2]) := by
  induction given with
  | nil => rfl
  | cons pair given ih =>
      obtain ⟨⟨hname, hknows⟩, hvalue, hargument⟩ := h pair List.mem_cons_self
      have hrest := ih fun p hp => h p (List.mem_cons_of_mem _ hp)
      simp only [List.flatMap_cons, List.cons_append, List.nil_append, tokens, if_neg hname,
        if_neg hvalue, hknows, hargument, hrest]
      rfl

theorem consume_pairs {given : List (Spec × String)}
    (h : ∀ pair ∈ given, pair.1.accepts pair.2 = true) :
    consume (given.flatMap fun pair => [.option pair.1 none, .argument pair.2]) =
      .ok ⟨given.map fun pair => (pair.1.name, pair.2), []⟩ := by
  induction given with
  | nil => rfl
  | cons pair given ih =>
      have hrest := ih fun p hp => h p (List.mem_cons_of_mem _ hp)
      simp only [List.flatMap_cons, List.cons_append, List.nil_append, consume,
        if_pos (h pair List.mem_cons_self), hrest, List.map_cons]
      rfl

/-- Options with arguments they accept are read back, if no required one is missing. -/
theorem parse_pairs {given : List (Spec × String)}
    (h : ∀ pair ∈ given, parser.Knows pair.1 ∧ parser.IsArgument pair.2)
    (haccepts : ∀ pair ∈ given, pair.1.accepts pair.2 = true)
    (hrequired : parser.missing (given.map fun pair => (pair.1.name, pair.2)) = []) :
    parser.parse (given.flatMap fun pair => [pair.1.name, pair.2]) =
      .ok (given.map fun pair => (pair.1.name, pair.2)) := by
  simp only [parse, tokens_pairs h, consume_pairs haccepts, bind, Except.bind, hrequired, ne_eq,
    not_true_eq_false, if_false]

end Parser

/-- The argument in force: the last one given. -/
def value (given : List (String × String)) (name : String) : Option String :=
  given.reverse.lookup name

end LongOptions
