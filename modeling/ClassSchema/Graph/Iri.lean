import ClassSchema.Text.Hex

/-! # Characters of IRIs

An IRI reference may hold no controls, no space and none of a few delimiters. Such characters are
percent-encoded; every other character stands for itself, so an IRI without them is left as it is.
-/

namespace ClassSchema

/-- Whether an IRI reference may not hold a character. -/
def isRefusedInIri (c : Char) : Bool :=
  c ≤ ' ' || c == '\x7f' || "<>\"\x7b\x7d|^\x60\\".toList.contains c

/-- How a character is written in an IRI reference; the refused ones are single bytes. -/
def iriChar (c : Char) : List Char :=
  if isRefusedInIri c then '%' :: Text.hexDigits Text.hexDigitUpper 2 c.toNat else [c]

/-- The text as an IRI reference. -/
def escapeIri (text : String) : String :=
  String.ofList (text.toList.flatMap iriChar)

/-- Every refused character is one byte long, so two digits encode it. -/
theorem lt_of_isRefusedInIri {c : Char} (refused : isRefusedInIri c = true) : c.toNat < 128 := by
  simp only [isRefusedInIri, Bool.or_eq_true, decide_eq_true_eq, beq_iff_eq] at refused
  rcases refused with (below | rfl) | listed
  · have : c.toNat ≤ 32 := below
    omega
  · decide
  · have members : "<>\"\x7b\x7d|^\x60\\".toList.all (·.toNat < 128) = true := by decide
    have := List.all_eq_true.mp members c (List.contains_iff_mem.mp listed)
    simpa using this

end ClassSchema
