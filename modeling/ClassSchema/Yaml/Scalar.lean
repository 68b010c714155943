import ClassSchema.Number.Literal
import ClassSchema.Yaml.Node

/-! # Values of scalars

A plain scalar may spell null, a truth value, an integer or a floating-point number; every other scalar
is a text. A tag of the core schema demands one of these kinds. Integers may be written in base two,
eight, ten and sixteen and have at most 128 bits; a run of digits with a leading zero is a text.
-/

namespace ClassSchema.Yaml

/-- What a scalar stands for. -/
inductive ScalarValue where
  | null
  | bool (value : Bool)
  | integer (value : Int)
  | float (value : Binary64)
  | text (value : String)

/-- Whether a text spells null. -/
def isNullText (text : String) : Bool :=
  ["null", "Null", "NULL", "~"].contains text

/-- The truth value that a text spells. -/
def boolOfText? (text : String) : Option Bool :=
  if ["true", "True", "TRUE"].contains text then some true
  else if ["false", "False", "FALSE"].contains text then some false
  else none

/-- The base and the digits of a number without sign. -/
def baseAndDigits : List Char → Nat × List Char
  | '0' :: 'x' :: rest => (16, rest)
  | '0' :: 'o' :: rest => (8, rest)
  | '0' :: 'b' :: rest => (2, rest)
  | cs => (10, cs)

/-- Whether the digits start with a zero that does not belong there. -/
def hasLeadingZero (cs : List Char) : Bool :=
  1 < cs.length && cs.head? == some '0' && cs.all Char.isDigit

/-- The magnitude of an integer without sign. -/
def magnitude? (cs : List Char) : Option Nat :=
  if hasLeadingZero cs then none
  else
    let (base, digits) := baseAndDigits cs
    digitsInBase? base digits

/-- The integer of at most 128 bits that a text spells. -/
def integerOfText? (text : String) : Option Int :=
  let (negative, cs) := splitSign text.toList
  match magnitude? cs with
  | none => none
  | some value =>
    if negative then (if value ≤ Nat.pow 2 127 then some (-(value : Int)) else none)
    else if value < Nat.pow 2 128 then some value
    else none

/-- Spellings of positive infinity without a sign. -/
def infinityTexts : List String := [".inf", ".Inf", ".INF"]

/-- The double that a text spells; a decimal beyond the greatest double spells none. -/
def floatOfText? (text : String) : Option Binary64 :=
  if infinityTexts.contains text || (infinityTexts.map ("+" ++ ·)).contains text then
    some (.infinite false)
  else if (infinityTexts.map ("-" ++ ·)).contains text then some (.infinite true)
  else if [".nan", ".NaN", ".NAN"].contains text then some .notANumber
  else
    match Binary64.ofLiteral? text with
    | some (.finite negative mantissa exponent) => some (.finite negative mantissa exponent)
    | _ => none

/-- What a plain scalar without a tag of the core schema stands for. -/
def plainValue (text : String) : ScalarValue :=
  if text.isEmpty || isNullText text then .null
  else
    match boolOfText? text, integerOfText? text with
    | some value, _ => .bool value
    | none, some value => .integer value
    | none, none =>
      if hasLeadingZero (splitSign text.toList).2 then .text text
      else
        match floatOfText? text with
        | some value => .float value
        | none => .text text

/-- A tag of the core schema. -/
def coreTag (name : String) : String :=
  "tag:yaml.org,2002:" ++ name

/-- The name of a local tag, which starts with an exclamation mark. -/
def localTag? (tag : Option String) : Option String :=
  match tag.map String.toList with
  | some ('!' :: name) => some (String.ofList name)
  | _ => none

/-- What a scalar without a local tag stands for; a core tag that its text does not fit is refused. -/
def scalarValue? (tag : Option String) (style : Style) (text : String) : Option ScalarValue :=
  match tag with
  | none => some (if style = .plain then plainValue text else .text text)
  | some tag =>
    if tag = coreTag "bool" then (boolOfText? text).map .bool
    else if tag = coreTag "int" then (integerOfText? text).map .integer
    else if tag = coreTag "float" then (floatOfText? text).map .float
    else if tag = coreTag "null" then (if isNullText text then some .null else none)
    else some (.text text)

namespace Node

/-- Whether an optional value is absent: a plain scalar that is empty or spells null. A null tag on any
other text is refused. -/
def isAbsent? : Node → Option Bool
  | .scalar tag style text =>
    if style ≠ .plain then some false
    else
      match tag with
      | none => some (text.isEmpty || isNullText text)
      | some tag => if tag = coreTag "null" then (if isNullText text then some true else none) else some false
  | .broken => none
  | _ => some false

/-- The text of a scalar, whatever it stands for. -/
def text? : Node → Option String
  | .scalar _ _ text => some text
  | _ => none

/-- The truth value of a plain scalar, or of a literal one that is tagged as such. -/
def bool? : Node → Option Bool
  | .scalar tag style text =>
    if style = .plain ∨ (style = .literal ∧ tag = some (coreTag "bool")) then boolOfText? text else none
  | _ => none

/-- The entries of a mapping; an empty plain scalar has none. -/
def entries? : Node → Option (List (Node × Node))
  | .mapping _ entries => some entries
  | .scalar _ .plain "" => some []
  | _ => none

/-- The items of a sequence; an empty plain scalar has none. -/
def items? : Node → Option (List Node)
  | .sequence _ items => some items
  | .scalar _ .plain "" => some []
  | _ => none

end Node

end ClassSchema.Yaml
