/-! # Double-precision numbers

Two readers take some numbers only as IEEE 754 doubles: untyped YAML floats, and the validator's test
for integers. A finite double is kept exactly, as a mantissa and a power of two, so rounding a decimal
and writing it back are arithmetic on natural numbers.
-/

namespace ClassSchema

/-- A double: `finite negative m q` stands for `± m · 2^q`. -/
inductive Binary64 where
  | finite (negative : Bool) (mantissa : Nat) (exponent : Int)
  | infinite (negative : Bool)
  | notANumber
deriving DecidableEq, Repr

namespace Binary64

/-- The least exponent of a finite double. -/
def minExponent : Int := -1074

/-- How many decimal digits a number has; zero has one. -/
def digitCount (n : Nat) : Nat :=
  (Nat.toDigits 10 n).length

/-- The quotient rounded to the nearest integer, with ties to the even one. -/
def divideToEven (num den : Nat) : Nat :=
  let quotient := num / den
  let twice := 2 * (num % den)
  if twice < den then quotient
  else if den < twice then quotient + 1
  else if quotient % 2 = 0 then quotient
  else quotient + 1

/-- The quotient `num / (den · 2^exponent)`, rounded by `round`. -/
def scaled (round : Nat → Nat → Nat) (num den : Nat) (exponent : Int) : Nat :=
  if 0 ≤ exponent then round num (den * Nat.pow 2 exponent.toNat)
  else round (num * Nat.pow 2 (-exponent).toNat) den

/-- The exponent at which a positive quotient has a mantissa of 53 bits, or the least exponent. -/
def exponentOf (num den : Nat) : Int :=
  let guess : Int := (num.log2 : Int) - den.log2 - 53
  let exact := if Nat.pow 2 53 ≤ scaled (· / ·) num den guess then guess + 1 else guess
  max exact minExponent

/-- The double nearest to `± num / den`, with ties to the even mantissa. -/
def ofQuotient (negative : Bool) (num den : Nat) : Binary64 :=
  if num = 0 then .finite negative 0 0
  else
    let exponent := exponentOf num den
    let mantissa := scaled divideToEven num den exponent
    if Nat.pow 2 1024 ≤ mantissa * Nat.pow 2 exponent.toNat then .infinite negative
    else .finite negative mantissa exponent

/-- The double nearest to `± digits · 10^exponent`. Far outside the range of doubles no power is
computed. -/
def ofDecimal (negative : Bool) (digits : Nat) (exponent : Int) : Binary64 :=
  if digits = 0 then .finite negative 0 0
  else if 400 < exponent + digitCount digits then .infinite negative
  else if exponent + digitCount digits < -400 then .finite negative 0 0
  else if 0 ≤ exponent then ofQuotient negative (digits * Nat.pow 10 exponent.toNat) 1
  else ofQuotient negative digits (Nat.pow 10 (-exponent).toNat)

/-- Whether a finite double has no fraction; `none` for the others. -/
def isIntegral? : Binary64 → Option Bool
  | .finite _ mantissa exponent => some (0 ≤ exponent || mantissa % Nat.pow 2 (-exponent).toNat == 0)
  | _ => none

end Binary64

end ClassSchema
