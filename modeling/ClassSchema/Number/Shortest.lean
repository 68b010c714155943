import ClassSchema.Number.Binary64

/-! # The shortest decimal that reads back

A finite double is written with the fewest digits whose nearest double is the same, and of those with
the digits nearest to it. Two layouts use them: a compact one that turns to an exponent for very large
and very small numbers, and a positional one that never does.
-/

namespace ClassSchema.Binary64

/-- A decimal `digits · 10^exponent`. -/
structure Decimal10 where
  digits : Nat
  exponent : Int
deriving DecidableEq, Repr

/-- The least and the greatest quarter-ulp multiples that still round to `mantissa · 2^exponent`,
in units of `2^(exponent - 2)`, and whether these ends belong to the interval. -/
def roundingInterval (mantissa : Nat) (exponent : Int) : Nat × Nat × Bool :=
  let below := if mantissa = Nat.pow 2 52 ∧ minExponent < exponent then 1 else 2
  (4 * mantissa - below, 4 * mantissa + 2, mantissa % 2 == 0)

/-- `n · 2^binary` as a quotient over `10^decimal`: a numerator and a denominator. -/
def overPowerOfTen (n : Nat) (binary decimal : Int) : Nat × Nat :=
  (n * Nat.pow 2 binary.toNat * Nat.pow 10 (-decimal).toNat,
    Nat.pow 2 (-binary).toNat * Nat.pow 10 decimal.toNat)

/-- The decimal exponent of the first digit of a positive double. -/
def leadingExponent (mantissa : Nat) (exponent : Int) : Int :=
  if 0 ≤ exponent then (digitCount (mantissa * Nat.pow 2 exponent.toNat) : Int) - 1
  else
    let den := Nat.pow 2 (-exponent).toNat
    if den ≤ mantissa then (digitCount (mantissa / den) : Int) - 1
    else
      match (List.range 400).find? fun shift => den ≤ mantissa * Nat.pow 10 shift with
      | some shift => -(shift : Int)
      | none => -400

/-- The decimal with `count` digits that reads back, if one does: of the two neighbours on that grid
the nearer, the even one on a tie. -/
def onGrid? (mantissa : Nat) (exponent : Int) (count : Nat) : Option Decimal10 :=
  let unit := leadingExponent mantissa exponent - (count - 1 : Nat)
  let (num, den) := overPowerOfTen (4 * mantissa) (exponent - 2) unit
  let (low, high, closed) := roundingInterval mantissa exponent
  let (lowNum, _) := overPowerOfTen low (exponent - 2) unit
  let (highNum, _) := overPowerOfTen high (exponent - 2) unit
  let inside (n : Nat) : Bool :=
    if closed then lowNum ≤ n * den && n * den ≤ highNum else lowNum < n * den && n * den < highNum
  let nearest := divideToEven num den
  let other := if nearest = num / den then nearest + 1 else num / den
  if inside nearest then some ⟨nearest, unit⟩
  else if inside other then some ⟨other, unit⟩
  else none

/-- The same decimal without a last zero, which a carry into a new place leaves behind. -/
def Decimal10.dropZero (decimal : Decimal10) : Decimal10 :=
  if decimal.digits ≠ 0 ∧ decimal.digits % 10 = 0 then ⟨decimal.digits / 10, decimal.exponent + 1⟩
  else decimal

/-- The shortest decimal that reads back as `mantissa · 2^exponent`. -/
def shortest (mantissa : Nat) (exponent : Int) : Decimal10 :=
  if mantissa = 0 then ⟨0, 0⟩
  else
    match (List.range 17).findSome? fun count => onGrid? mantissa exponent (count + 1) with
    | some decimal => decimal.dropZero
    | none => ⟨mantissa, exponent⟩

/-- Zeros. -/
def zeros (count : Nat) : String :=
  String.ofList (List.replicate count '0')

/-- A decimal in positional form; an integer has no point. -/
def Decimal10.positional (decimal : Decimal10) : String :=
  let digits := toString decimal.digits
  if decimal.digits = 0 then "0"
  else if 0 ≤ decimal.exponent then digits ++ zeros decimal.exponent.toNat
  else
    let places := (-decimal.exponent).toNat
    if places < digits.length then
      String.ofList (digits.toList.take (digits.length - places)) ++ "." ++
        String.ofList (digits.toList.drop (digits.length - places))
    else "0." ++ zeros (places - digits.length) ++ digits

/-- The compact layout: positional between `10^-5` and `10^16`, with `.0` on integers, and otherwise
one digit, a point, the other digits and an exponent. -/
def Decimal10.compact (decimal : Decimal10) : String :=
  let digits := toString decimal.digits
  let point : Int := digits.length + decimal.exponent
  if decimal.digits = 0 then "0.0"
  else if 0 ≤ decimal.exponent ∧ point ≤ 16 then decimal.positional ++ ".0"
  else if -5 < point ∧ point ≤ 16 then decimal.positional
  else
    let mantissa :=
      match digits.toList with
      | first :: next :: rest => String.ofList (first :: '.' :: next :: rest)
      | cs => String.ofList cs
    let exponent := point - 1
    mantissa ++ (if exponent < 0 then "e-" else "e+") ++ toString exponent.natAbs

/-- The sign of a number. -/
def signText (negative : Bool) : String :=
  if negative then "-" else ""

/-- Positional text of any double. -/
def positionalText : Binary64 → String
  | .finite negative mantissa exponent => signText negative ++ (shortest mantissa exponent).positional
  | .infinite negative => signText negative ++ "inf"
  | .notANumber => "NaN"

/-- Compact text of a finite double. -/
def compactText? : Binary64 → Option String
  | .finite negative mantissa exponent =>
    some (signText negative ++ (shortest mantissa exponent).compact)
  | _ => none

end ClassSchema.Binary64
