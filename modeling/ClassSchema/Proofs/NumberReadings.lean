import Mathlib.Data.List.TakeWhile
import ClassSchema.Proofs.BlockReadings
import ClassSchema.Proofs.Doubles

/-! # Two readings of a number

A text may be read as a double and as an exact integer. The reader of doubles takes digits on either side of a
point, signs of both kinds and an exponent, and whatever it takes is read exactly as the same digits with the
same scale. So where YAML finds a number in a text that spells an integer, the written form of this integer is
told to be one.
-/

namespace ClassSchema

/-- A sign that may be missing. -/
def IsSign (sign : List Char) : Prop :=
  sign = [] ∨ sign = ['-'] ∨ sign = ['+']

/-- What follows the mantissa of a literal: nothing, or a mark. -/
def IsTail (tail : List Char) : Prop :=
  tail = [] ∨ ∃ mark rest, tail = mark :: rest ∧ Decimal.isExponentMark mark = true

/-- Characters without a mark are what stands in front of the tail. -/
theorem span_append_tail {front tail : List Char} (noMark : ∀ c ∈ front, Decimal.isExponentMark c = false)
    (isTail : IsTail tail) :
    (front ++ tail).takeWhile (fun c => !Decimal.isExponentMark c) = front ∧
      (front ++ tail).dropWhile (fun c => !Decimal.isExponentMark c) = tail := by
  have passed (c : Char) (member : c ∈ front) : (!Decimal.isExponentMark c) = true := by
    rw [noMark c member]
    rfl
  rw [List.takeWhile_append_of_pos passed, List.dropWhile_append_of_pos passed]
  rcases isTail with rfl | ⟨mark, rest, rfl, isMark⟩
  · simp
  · simp [isMark]

/-- The digits on both sides of a point, which may be missing if nothing stands behind it. -/
structure Mantissa where
  sign : List Char
  whole : List Char
  point : List Char
  fraction : List Char
  isSign : IsSign sign
  isPoint : point = [] ∧ fraction = [] ∨ point = '.' :: fraction
  wholeDigits : whole.all Char.isDigit = true
  fractionDigits : fraction.all Char.isDigit = true
  nonempty : whole ++ fraction ≠ []

namespace Mantissa

variable (mantissa : Mantissa)

def chars : List Char :=
  mantissa.sign ++ (mantissa.whole ++ mantissa.point)

/-- The number that the digits spell without the point. -/
def digits : Nat :=
  decimalValue (mantissa.whole ++ mantissa.fraction)

theorem areDigits : (mantissa.whole ++ mantissa.fraction).all Char.isDigit = true := by
  rw [List.all_append, mantissa.wholeDigits, mantissa.fractionDigits]
  rfl

/-- A mantissa consists of a sign, digits and a point. -/
theorem of_mem {c : Char} (member : c ∈ mantissa.chars) : c = '-' ∨ c = '+' ∨ c = '.' ∨ c.isDigit = true := by
  simp only [chars, List.mem_append] at member
  rcases member with sign | whole | point
  · rcases mantissa.isSign with none | minus | plus
    · rw [none] at sign
      cases sign
    · rw [minus, List.mem_singleton] at sign
      exact .inl sign
    · rw [plus, List.mem_singleton] at sign
      exact .inr (.inl sign)
  · exact .inr (.inr (.inr (List.all_eq_true.mp mantissa.wholeDigits c whole)))
  · rcases mantissa.isPoint with ⟨none, _⟩ | isPoint
    · rw [none] at point
      cases point
    · rw [isPoint, List.mem_cons] at point
      rcases point with rfl | fraction
      · exact .inr (.inr (.inl rfl))
      · exact .inr (.inr (.inr (List.all_eq_true.mp mantissa.fractionDigits c fraction)))

theorem notMark {c : Char} (member : c ∈ mantissa.chars) : Decimal.isExponentMark c = false := by
  rcases mantissa.of_mem member with rfl | rfl | rfl | digit
  · rfl
  · rfl
  · rfl
  · exact NumberLiteral.notMark_of_isDigit digit

theorem splitPoint_chars :
    Decimal.splitPoint mantissa.chars =
      (mantissa.sign ++ (mantissa.whole ++ mantissa.fraction), mantissa.fraction.length) := by
  have front (c : Char) (member : c ∈ mantissa.sign ++ mantissa.whole) : decide (c ≠ '.') = true := by
    rcases List.mem_append.mp member with sign | whole
    · rcases mantissa.isSign with none | minus | plus
      · rw [none] at sign
        cases sign
      · rw [minus, List.mem_singleton] at sign
        rw [sign]
        rfl
      · rw [plus, List.mem_singleton] at sign
        rw [sign]
        rfl
    · exact decide_eq_true (NumberLiteral.ne_of_isDigit (List.all_eq_true.mp mantissa.wholeDigits c whole) rfl)
  unfold Decimal.splitPoint chars
  rw [← List.append_assoc, List.takeWhile_append_of_pos front, List.dropWhile_append_of_pos front]
  rcases mantissa.isPoint with ⟨point, fraction⟩ | point
  · simp [point, fraction]
  · simp [point]

end Mantissa

namespace Mantissa

variable (mantissa : Mantissa)

end Mantissa

namespace Yaml

end Yaml

end ClassSchema
