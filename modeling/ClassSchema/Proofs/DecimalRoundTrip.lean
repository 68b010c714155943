import ClassSchema.Proofs.JsonRoundTrip

/-! # Decimals read back

A decimal that was read from a text is written as a number of JSON and read back with its digits and its scale,
with two exceptions. The written form of a number with up to fifteen zeros behind its digits shows the zeros, so
they come back as digits; the value is the same. And the zero of the least scale has no written form, because the
negation of its scale overflows 64 bits.
-/

namespace ClassSchema.Decimal

/-- Only zeros that are written out change digits and scale. -/
theorem written_eq_self_iff (decimal : Decimal) :
    decimal.written = decimal ↔ decimal.digits = 0 ∨ decimal.scale < -15 ∨ 0 ≤ decimal.scale := by
  unfold written
  split
  · rename_i few
    refine iff_of_false ?_ (by omega)
    intro same
    have scale : (0 : Int) = decimal.scale := congrArg Decimal.scale same
    omega
  · rename_i others
    exact iff_of_true rfl (by omega)

/-- A decimal that was read has a written form, which is a number of JSON and is read back as the same number,
unless it is the zero of the least scale, whose exponent overflows; and it is the same decimal exactly if it is
zero or no zeros were written out. -/
theorem text?_of_parse {text : String} {decimal : Decimal} (parsed : parse text = .ok decimal) :
    (decimal ≠ leastZero → ∃ back, decimal.text? = some back ∧ (Json.literal? back).isSome = true ∧
      parse back = .ok decimal.written ∧ decimal.written.sameValue decimal = true ∧
      (decimal.written = decimal ↔ decimal.digits = 0 ∨ decimal.scale < -15 ∨ 0 ≤ decimal.scale)) ∧
    (decimal = leastZero → decimal.text? = none) := by
  have fits := isWord_scale_of_parse parsed
  refine ⟨?_, (text?_eq_none_iff fits).mpr⟩
  intro other
  obtain ⟨literal, back, _⟩ := exists_literal fits other
  have isNumber : (Json.literal? literal.text).isSome = true := by
    rw [Json.literal?_text]
    rfl
  have again := parse_spelling_eq fits other
  rw [spelling, back, Option.getD_some] at again
  exact ⟨literal.text, back, isNumber, again, sameValue_written decimal, written_eq_self_iff decimal⟩

theorem text?_of_parse_large : parse "-2.50e20" = .ok ⟨-250, -18⟩ ∧
    ∃ back, Decimal.text? ⟨-250, -18⟩ = some back ∧ parse back = .ok ⟨-250, -18⟩ := by
  have parsed : parse "-2.50e20" = .ok ⟨-250, -18⟩ := by decide +kernel
  obtain ⟨back, written, _, again, _, same⟩ := (text?_of_parse parsed).1 (by decide)
  rw [same.mpr (.inr (.inl (by decide)))] at again
  exact ⟨parsed, back, written, again⟩

/-- Two decimals that are read and do not come back: the zeros of one become digits, and the other one has no
written form. -/
theorem exists_text?_not_read_back :
    (parse "1e3" = .ok ⟨1, -3⟩ ∧ Decimal.text? ⟨1, -3⟩ = some "1000" ∧ parse "1000" = .ok ⟨1000, 0⟩) ∧
      parse "0e9223372036854775808" = .ok leastZero ∧ leastZero.text? = none := by
  refine ⟨⟨by decide +kernel, by decide +kernel, by decide +kernel⟩, by decide +kernel, rfl⟩

end ClassSchema.Decimal
