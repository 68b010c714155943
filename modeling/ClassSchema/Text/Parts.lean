/-! # Parts of texts

Splitting at a separator. There is always one part more than there are separators, and some parts may be
empty.
-/

namespace ClassSchema.Text

/-- The parts of a text between separators. -/
def splitParts (separator : Char) : List Char → List (List Char)
  | [] => [[]]
  | c :: rest =>
    if c = separator then [] :: splitParts separator rest
    else
      match splitParts separator rest with
      | part :: parts => (c :: part) :: parts
      | [] => [[c]]

/-- No text is without parts. -/
theorem splitParts_ne_nil (separator : Char) (cs : List Char) : splitParts separator cs ≠ [] := by
  cases cs with
  | nil => simp [splitParts]
  | cons c rest =>
    unfold splitParts
    split
    · simp
    · split <;> simp

/-- The parts, with separators between them, are the text. -/
theorem intercalate_splitParts (separator : Char) (cs : List Char) :
    [separator].intercalate (splitParts separator cs) = cs := by
  induction cs with
  | nil => rfl
  | cons c rest ih =>
    unfold splitParts
    split
    · rename_i same
      subst same
      cases found : splitParts c rest with
      | nil => exact absurd found (splitParts_ne_nil c rest)
      | cons part parts =>
        rw [found] at ih
        simp [← ih, List.intercalate]
    · cases found : splitParts separator rest with
      | nil => exact absurd found (splitParts_ne_nil separator rest)
      | cons part parts =>
        rw [found] at ih
        cases parts <;> simp [← ih, List.intercalate]

end ClassSchema.Text
