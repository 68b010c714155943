import ClassSchema.Number.Word
import ClassSchema.Text.Blank

/-! # Exact decimals

A decimal is an integer with a scale: `digits · 10^(-scale)`. The scale is part of the value that is
kept, so `1.50` and `1.5` are equal numbers but different decimals, and each is written as it was read.
Scales fit into 64 bits.
-/

namespace ClassSchema

/-- The number `digits · 10^(-scale)`. -/
structure Decimal where
  digits : Int
  scale : Int
deriving DecidableEq, Repr, Inhabited

/-- Why a text is no numeral. -/
inductive NumeralError where
  | empty
  | invalidDigit
  | tooLarge
  | tooSmall
deriving DecidableEq, Repr

/-- The wording of a numeral's fault. -/
def NumeralError.message : NumeralError → String
  | .empty => "cannot parse integer from empty string"
  | .invalidDigit => "invalid digit found in string"
  | .tooLarge => "number too large to fit in target type"
  | .tooSmall => "number too small to fit in target type"

/-- Why a text is no decimal. -/
inductive DecimalError where
  | empty
  | strangeCharacter
  /-- Nothing stands before the exponent. -/
  | emptyMantissa
  | numeral (error : NumeralError)
  /-- The scale of the literal does not fit. -/
  | scaleOverflow (literal : String)
deriving DecidableEq, Repr

/-- The wording of a decimal's fault. -/
def DecimalError.message : DecimalError → String
  | .empty => "empty decimal literal"
  | .strangeCharacter => "not a decimal literal"
  | .emptyMantissa => "not a decimal literal: Failed to parse empty string"
  | .numeral error => "not a decimal literal: " ++ error.message
  | .scaleOverflow literal => s!"not a decimal literal: Exponent overflow when parsing '{literal}'"

/-- The value of an ASCII digit. -/
def digitValue (c : Char) : Nat :=
  c.toNat - '0'.toNat

/-- The digits of an integer of any size. Underscores may stand behind the first digit. -/
def unsignedNumeral (cs : List Char) : Except NumeralError Nat :=
  match cs with
  | [] => .error .empty
  | '_' :: _ => .error .invalidDigit
  | cs =>
    if cs.all fun c => c.isDigit || c == '_' then
      .ok ((cs.filter Char.isDigit).foldl (fun value c => value * 10 + digitValue c) 0)
    else .error .invalidDigit

/-- An integer of any size, with one sign at most. -/
def signedNumeral (cs : List Char) : Except NumeralError Int :=
  match cs with
  | '-' :: '+' :: _ => .error .invalidDigit
  | '-' :: rest => (unsignedNumeral rest).map fun value => -(value : Int)
  | '+' :: '+' :: _ => .error .invalidDigit
  | '+' :: rest => (unsignedNumeral rest).map Int.ofNat
  | rest => (unsignedNumeral rest).map Int.ofNat

/-- Digits read from left to right behind a value, up to the first fault: a character that is no digit,
or a value beyond `bound`. -/
def boundedDigits (bound : Nat) (overflow : NumeralError) (value : Nat) :
    List Char → Except NumeralError Nat
  | [] => .ok value
  | c :: rest =>
    if !c.isDigit then .error .invalidDigit
    else
      let next := value * 10 + digitValue c
      if bound < next then .error overflow else boundedDigits bound overflow next rest

/-- An exponent, which has 128 bits. -/
def exponentNumeral (cs : List Char) : Except NumeralError Int :=
  match cs with
  | [] => .error .empty
  | ['-'] => .error .invalidDigit
  | ['+'] => .error .invalidDigit
  | '-' :: rest => (boundedDigits (Nat.pow 2 127) .tooSmall 0 rest).map fun value => -(value : Int)
  | '+' :: rest => (boundedDigits (Nat.pow 2 127 - 1) .tooLarge 0 rest).map Int.ofNat
  | rest => (boundedDigits (Nat.pow 2 127 - 1) .tooLarge 0 rest).map Int.ofNat

namespace Decimal

/-- The characters that decimal literals consist of. -/
def isLiteralChar (c : Char) : Bool :=
  c.isDigit || c == '+' || c == '-' || c == '.' || c == 'e' || c == 'E'

/-- Whether the letter starts an exponent. -/
def isExponentMark (c : Char) : Bool :=
  c == 'e' || c == 'E'

/-- The exponent of a literal, zero if it has none. -/
def literalExponent (cs : List Char) : Except NumeralError Int :=
  match cs.dropWhile (fun c => !isExponentMark c) with
  | [] => .ok 0
  | _ :: rest => exponentNumeral rest

/-- The characters of a mantissa without its first point, and how many stood behind the point. -/
def splitPoint (mantissa : List Char) : List Char × Nat :=
  let fraction := (mantissa.dropWhile (· ≠ '.')).tail
  (mantissa.takeWhile (· ≠ '.') ++ fraction, fraction.length)

/-- The decimal that a literal spells. Of several faults the exponent's comes first, then a missing
mantissa, then the scale, and last the digits. -/
def ofLiteral (cs : List Char) : Except DecimalError Decimal := do
  let exponent ← (literalExponent cs).mapError DecimalError.numeral
  let mantissa := cs.takeWhile fun c => !isExponentMark c
  if mantissa.isEmpty then .error .emptyMantissa
  else
    let (digits, places) := splitPoint mantissa
    let scale := (places : Int) - exponent
    if !isWord scale then .error (.scaleOverflow (String.ofList cs))
    else
      let value ← (signedNumeral digits).mapError DecimalError.numeral
      return ⟨value, scale⟩

/-- The decimal that a text spells, blanks around it aside. -/
def parse (text : String) : Except DecimalError Decimal :=
  let cs := Text.stripEnds Text.isBlank text.toList
  if cs.isEmpty then .error .empty
  else if !cs.all isLiteralChar then .error .strangeCharacter
  else ofLiteral cs

/-- The negation of a scale, unless it overflows 64 bits. -/
def negateScale? (scale : Int) : Option Int :=
  if isWord (-scale) then some (-scale) else none

/-- A run of zeros. -/
def zeroRun (count : Nat) : List Char :=
  List.replicate count '0'

/-- Zero with a scale: its places are written out, or else its exponent. Where the exponent overflows, nothing
can be written. -/
def zeroText? (scale : Int) : Option (List Char) :=
  if scale = 0 then some ['0']
  else if 0 < scale then some ('0' :: '.' :: zeroRun scale.toNat)
  else (negateScale? scale).map fun exponent => "0E+".toList ++ (toString exponent).toList

/-- Digits with a scale, without sign. A number with more than five zeros between the point and its
first digit is written with one digit before the point and an exponent; one with more than fifteen zeros
behind its last digit is written with these counted by an exponent. -/
def magnitudeText (digits : List Char) (scale : Int) : List Char :=
  if (digits.length : Int) + 5 < scale then
    let fraction := if digits.tail.isEmpty then [] else '.' :: digits.tail
    digits.take 1 ++ fraction ++ "E-".toList ++ (toString (scale - digits.length + 1)).toList
  else if scale < -15 then digits ++ "e+".toList ++ (toString (-scale)).toList
  else if scale ≤ 0 then digits ++ zeroRun (-scale).toNat
  else
    let places := scale.toNat
    if places < digits.length then
      digits.take (digits.length - places) ++ '.' :: digits.drop (digits.length - places)
    else '0' :: '.' :: zeroRun (places - digits.length) ++ digits

/-- A decimal as text, with its scale; the zero of the least scale has none. -/
def text? (decimal : Decimal) : Option String :=
  if decimal.digits = 0 then (zeroText? decimal.scale).map String.ofList
  else
    let magnitude := magnitudeText (Nat.toDigits 10 decimal.digits.natAbs) decimal.scale
    some (String.ofList (if decimal.digits < 0 then '-' :: magnitude else magnitude))

/-- How many zeros stand at the end of a number's digits. -/
def trailingZeros (n : Nat) : Nat :=
  ((Nat.toDigits 10 n).reverse.takeWhile (· == '0')).length

/-- The decimal of the same value without zeros at the end of its digits. -/
def reduced (decimal : Decimal) : Decimal :=
  if decimal.digits = 0 then ⟨0, 0⟩
  else
    let zeros := trailingZeros decimal.digits.natAbs
    ⟨decimal.digits.tdiv (Nat.pow 10 zeros), decimal.scale - zeros⟩

/-- Whether two decimals have the same value. -/
def sameValue (left right : Decimal) : Bool :=
  left.reduced == right.reduced

/-- The integer that a decimal is equal to, if it has no fraction. -/
def toInteger? (decimal : Decimal) : Option Int :=
  let reduced := decimal.reduced
  if reduced.scale ≤ 0 then some (reduced.digits * Nat.pow 10 (-reduced.scale).toNat) else none

end Decimal

/-- Why a text is no integer. -/
inductive IntegerError where
  | notInteger
  | fractional
deriving DecidableEq, Repr

/-- The wording of an integer's fault. -/
def IntegerError.message : IntegerError → String
  | .notInteger => "not an integer literal"
  | .fractional => "has a fractional part"

/-- The integer that a text spells: a numeral, or else a decimal without fraction. -/
def parseInteger (text : String) : Except IntegerError Int :=
  match signedNumeral text.toList with
  | .ok value => .ok value
  | .error _ =>
    match Decimal.parse text with
    | .error _ => .error .notInteger
    | .ok decimal =>
      match decimal.toInteger? with
      | some value => .ok value
      | none => .error .fractional

end ClassSchema
