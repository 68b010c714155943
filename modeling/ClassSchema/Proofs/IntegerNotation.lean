import Mathlib.Algebra.Field.Rat
import Mathlib.Data.Rat.Cast.Order
import Mathlib.Tactic.FieldSimp
import ClassSchema.Proofs.DecimalNotation

/-! # The notation of integers

An integer is read from a numeral, or else from a decimal that is equal to it. Numerals without underscores are
decimals too, so the two ways agree on them: the integer that is read is the value of the decimal. With
underscores they differ, for these stand between the digits of numerals and in no decimal.
-/

namespace ClassSchema

namespace Decimal

/-- The number that a decimal stands for. -/
def value (decimal : Decimal) : ℚ :=
  decimal.digits * 10 ^ (-decimal.scale)

end Decimal

end ClassSchema
