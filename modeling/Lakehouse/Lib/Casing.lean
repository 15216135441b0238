/-
Full Unicode case mapping, as far as ASCII texts need it.

`lower` maps every character whose lower case has an ASCII letter, so its result
contains an ASCII text exactly where the full mapping does. `upper` maps those
whose upper case is ASCII letters only, so its result equals an ASCII text exactly
where the full mapping does.
-/

namespace Casing

/-- Upper case. -/
def upper (s : String) : String :=
  String.ofList (s.toList.flatMap fun c =>
    match c with
    | 'ı' => ['I']
    | 'ſ' => ['S']
    | 'ß' => ['S', 'S']
    | 'ﬀ' => ['F', 'F']
    | 'ﬁ' => ['F', 'I']
    | 'ﬂ' => ['F', 'L']
    | 'ﬃ' => ['F', 'F', 'I']
    | 'ﬄ' => ['F', 'F', 'L']
    | 'ﬅ' => ['S', 'T']
    | 'ﬆ' => ['S', 'T']
    | c => [c.toUpper])

/-- Lower case. -/
def lower (s : String) : String :=
  String.ofList (s.toList.flatMap fun c =>
    match c with
    | 'İ' => ['i', '\u0307']
    | '\u212A' => ['k']
    | c => [c.toLower])

end Casing
