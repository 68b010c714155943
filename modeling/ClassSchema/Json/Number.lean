/-! # Number literals of JSON

A literal is an optional minus sign, an integer part without leading zeros, an optional fraction and
an optional exponent. Reading keeps every digit; only the exponent has one spelling, a small `e`
followed by a sign, so that `1E5` and `1e5` are the same literal `1e+5`.
-/

namespace ClassSchema.Json

/-- The run of ASCII digits at the front, and what follows it. -/
def spanDigits (cs : List Char) : List Char × List Char :=
  (cs.takeWhile Char.isDigit, cs.dropWhile Char.isDigit)

/-- A run of at least one digit. -/
def digits? (cs : List Char) : Option (List Char × List Char) :=
  match spanDigits cs with
  | ([], _) => none
  | (run, rest) => some (run, rest)

/-- The integer part: a zero, or a run of digits that does not start with one. -/
def integerPart? : List Char → Option (List Char × List Char)
  | '0' :: rest => some (['0'], rest)
  | cs => digits? cs

/-- The fraction with its point, or nothing. -/
def fractionPart? : List Char → Option (List Char × List Char)
  | '.' :: rest => (digits? rest).map fun (run, rest) => ('.' :: run, rest)
  | cs => some ([], cs)

/-- The exponent in its one spelling, or nothing. -/
def exponentPart? : List Char → Option (List Char × List Char)
  | [] => some ([], [])
  | c :: rest =>
    if c = 'e' ∨ c = 'E' then
      match rest with
      | '-' :: rest => (digits? rest).map fun (run, rest) => ('e' :: '-' :: run, rest)
      | '+' :: rest => (digits? rest).map fun (run, rest) => ('e' :: '+' :: run, rest)
      | rest => (digits? rest).map fun (run, rest) => ('e' :: '+' :: run, rest)
    else some ([], c :: rest)

/-- The literal without its sign, and what follows it. -/
def unsigned? (cs : List Char) : Option (List Char × List Char) := do
  let (whole, rest) ← integerPart? cs
  let (fraction, rest) ← fractionPart? rest
  let (exponent, rest) ← exponentPart? rest
  return (whole ++ fraction ++ exponent, rest)

/-- The literal at the front, and what follows it. -/
def number? : List Char → Option (List Char × List Char)
  | '-' :: rest => (unsigned? rest).map fun (literal, rest) => ('-' :: literal, rest)
  | cs => unsigned? cs

/-- The literal that a whole text spells, in its one spelling. -/
def literal? (s : String) : Option String :=
  match number? s.toList with
  | some (literal, []) => some (String.ofList literal)
  | _ => none

end ClassSchema.Json
