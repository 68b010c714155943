import ClassSchema.Number.Binary64
import ClassSchema.Text.Hex

/-! # Literals of doubles

A decimal literal has an optional sign, digits with an optional point among them, and an optional
exponent; it stands for the double nearest to it.
-/

namespace ClassSchema

/-- The sign and the rest of a number. -/
def splitSign : List Char → Bool × List Char
  | '-' :: rest => (true, rest)
  | '+' :: rest => (false, rest)
  | cs => (false, cs)

/-- The number that digits of a base spell; there must be one digit at least. -/
def digitsInBase? (base : Nat) (cs : List Char) : Option Nat :=
  if cs.isEmpty then none
  else
    cs.foldlM (fun value c =>
      ((Text.hexValue? c).filter (· < base)).map (value * base + ·)) 0

namespace Binary64

/-- The exponent behind a mantissa, zero if nothing is there. -/
def literalExponent? : List Char → Option Int
  | [] => some 0
  | mark :: rest =>
    if mark == 'e' || mark == 'E' then
      let (below, digits) := splitSign rest
      (digitsInBase? 10 digits).map fun value => if below then -(value : Int) else value
    else none

/-- The digits before and behind the point of a literal without sign, and what follows them. -/
def splitMantissa (cs : List Char) : List Char × List Char × List Char :=
  let whole := cs.takeWhile Char.isDigit
  match cs.dropWhile Char.isDigit with
  | '.' :: rest => (whole, rest.takeWhile Char.isDigit, rest.dropWhile Char.isDigit)
  | rest => (whole, [], rest)

/-- The double that a decimal literal stands for. -/
def ofLiteral? (literal : String) : Option Binary64 :=
  let (negative, cs) := splitSign literal.toList
  let (whole, fraction, rest) := splitMantissa cs
  match literalExponent? rest, digitsInBase? 10 (whole ++ fraction) with
  | some exponent, some digits => some (ofDecimal negative digits (exponent - fraction.length))
  | _, _ => none

end Binary64

end ClassSchema
