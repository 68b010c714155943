import ClassSchema.Json.Number
import ClassSchema.Proofs.NumberLiterals

/-! # Number literals in JSON

The reader of JSON takes exactly the number literals, whatever they end before, and keeps them as they are
but for the exponent mark. So JSON data has no other numbers than literals, and a literal that is written
is read back with the same exact value.
-/

namespace ClassSchema

namespace NumberLiteral

variable (literal : NumberLiteral)

/-- The literal with the exponent mark that JSON data is kept with. -/
def canonical : NumberLiteral :=
  { literal with exponent? := literal.exponent?.map fun part => { part with mark := 'e', isMark := rfl } }

theorem exponent_canonical : literal.canonical.exponent = literal.exponent := by
  cases part : literal.exponent? <;> simp [canonical, exponent, part, ExponentPart.value]

theorem hasScale_canonical : literal.canonical.HasScale ↔ literal.HasScale := by
  simp only [HasScale, scale, exponent_canonical]
  rfl

end NumberLiteral

namespace Json

theorem digits?_append {digits rest : List Char} (nonempty : digits ≠ [])
    (areDigits : digits.all Char.isDigit = true) (ends : ∀ c ∈ rest.head?, c.isDigit = false) :
    digits? (digits ++ rest) = some (digits, rest) := by
  obtain ⟨taken, left⟩ := NumberLiteral.spanDigits_append areDigits ends
  unfold digits? spanDigits
  rw [taken, left]
  cases digits with
  | nil => exact absurd rfl nonempty
  | cons c digits => rfl

/-- What is found by reading digits is digits. -/
theorem of_digits? {cs run rest : List Char} (read : digits? cs = some (run, rest)) :
    run ≠ [] ∧ run.all Char.isDigit = true := by
  have areDigits : (cs.takeWhile Char.isDigit).all Char.isDigit = true := List.all_takeWhile
  unfold digits? spanDigits at read
  split at read
  · cases read
  · rename_i first others nonempty same
    cases read
    cases same
    exact ⟨nonempty, areDigits⟩

/-- Whether a text does not go on with a number that stands before it. -/
def EndsNumber (rest : List Char) : Prop :=
  ∀ c ∈ rest.head?, c.isDigit = false ∧ c ≠ '.' ∧ c ≠ 'e' ∧ c ≠ 'E'

theorem EndsNumber.noDigit {rest : List Char} (ends : EndsNumber rest) (c : Char) (first : c ∈ rest.head?) :
    c.isDigit = false :=
  (ends c first).1

theorem integerPart?_append (literal : NumberLiteral) {rest : List Char}
    (ends : ∀ c ∈ rest.head?, c.isDigit = false) :
    integerPart? (literal.whole ++ rest) = some (literal.whole, rest) := by
  rcases literal.wholeShape with zero | ⟨nonempty, noZero⟩
  · rw [zero]
    rfl
  · have read := digits?_append nonempty literal.wholeDigits ends
    unfold integerPart?
    split
    · rename_i others same
      obtain ⟨first, others', split⟩ := List.exists_cons_of_ne_nil nonempty
      rw [split, List.cons_append] at same
      cases same
      rw [split] at noZero
      exact absurd rfl noZero
    · exact read

theorem fractionPart?_append (literal : NumberLiteral) {rest : List Char}
    (ends : ∀ c ∈ rest.head?, c.isDigit = false ∧ c ≠ '.') :
    fractionPart? (literal.pointChars ++ rest) = some (literal.pointChars, rest) := by
  unfold NumberLiteral.pointChars
  cases fraction : literal.fraction with
  | nil =>
    change fractionPart? rest = some ([], rest)
    unfold fractionPart?
    split
    · exact absurd rfl (ends '.' rfl).2
    · rfl
  | cons first others =>
    have nonempty : literal.fraction ≠ [] := by simp [fraction]
    have read := digits?_append nonempty literal.fractionDigits fun c head => (ends c head).1
    rw [fraction] at read
    simp only [List.isEmpty_cons, Bool.false_eq_true, if_false, List.cons_append] at read ⊢
    rw [fractionPart?, read]
    rfl

theorem exponentPart?_append (literal : NumberLiteral) {rest : List Char} (ends : EndsNumber rest) :
    exponentPart? (literal.exponentChars ++ rest) = some (literal.canonical.exponentChars, rest) := by
  cases part : literal.exponent? with
  | none =>
    simp only [NumberLiteral.exponentChars, NumberLiteral.canonical, part, Option.map_none, List.nil_append]
    cases rest with
    | nil => rfl
    | cons c others =>
      obtain ⟨_, _, small, capital⟩ := ends c rfl
      simp [exponentPart?, small, capital]
  | some part' =>
    have mark : part'.mark = 'e' ∨ part'.mark = 'E' := by
      have isMark := part'.isMark
      simpa only [Decimal.isExponentMark, Bool.or_eq_true, beq_iff_eq] using isMark
    have read := digits?_append part'.nonempty part'.areDigits ends.noDigit
    simp only [NumberLiteral.exponentChars, NumberLiteral.canonical, part, Option.map_some,
      ExponentPart.chars, List.cons_append]
    cases part'.below <;> simp [exponentPart?, mark, read]

/-- A literal is read as it is, with one spelling of its exponent mark. -/
theorem number?_append (literal : NumberLiteral) {rest : List Char} (ends : EndsNumber rest) :
    number? (literal.chars ++ rest) = some (literal.canonical.chars, rest) := by
  have exponentHead (c : Char) (first : c ∈ (literal.exponentChars ++ rest).head?) :
      c.isDigit = false ∧ c ≠ '.' := by
    cases exponent : literal.exponentChars with
    | nil =>
      rw [exponent] at first
      exact ⟨(ends c first).1, (ends c first).2.1⟩
    | cons other others =>
      rw [exponent] at first
      exact literal.exponentChars_head c (by rw [exponent]; exact first)
  have pointHead (c : Char) (first : c ∈ (literal.pointChars ++ (literal.exponentChars ++ rest)).head?) :
      c.isDigit = false := by
    cases point : literal.pointChars with
    | nil =>
      rw [point] at first
      exact (exponentHead c first).1
    | cons other others =>
      rw [point] at first
      unfold NumberLiteral.pointChars at point
      split at point
      · cases point
      · cases point
        cases first
        rfl
  have unsigned : unsigned? (literal.whole ++ (literal.pointChars ++ (literal.exponentChars ++ rest))) =
      some (literal.whole ++ (literal.pointChars ++ literal.canonical.exponentChars), rest) := by
    simp [unsigned?, integerPart?_append literal pointHead, fractionPart?_append literal exponentHead,
      exponentPart?_append literal ends]
  simp only [NumberLiteral.chars, List.append_assoc, NumberLiteral.signChars]
  cases negative : literal.negative with
  | true =>
    simp only [if_true, List.cons_append, List.nil_append, number?, unsigned]
    simp [NumberLiteral.canonical, negative, NumberLiteral.pointChars]
  | false =>
    obtain ⟨first, others, split, digit⟩ := literal.exists_whole_eq_cons
    simp only [Bool.false_eq_true, if_false, List.nil_append]
    rw [number?, unsigned]
    · simp [NumberLiteral.canonical, negative, NumberLiteral.pointChars]
    · rw [split]
      rintro other same
      cases same
      cases digit

theorem of_integerPart? {cs whole rest : List Char} (read : integerPart? cs = some (whole, rest)) :
    (whole = ['0'] ∨ whole ≠ [] ∧ whole.head? ≠ some '0') ∧ whole.all Char.isDigit = true := by
  unfold integerPart? at read
  split at read
  · cases read
    exact ⟨.inl rfl, rfl⟩
  · rename_i noZero
    obtain ⟨nonempty, areDigits⟩ := of_digits? read
    refine ⟨.inr ⟨nonempty, ?_⟩, areDigits⟩
    intro zero
    unfold digits? spanDigits at read
    split at read
    · cases read
    · rename_i same
      cases read
      cases same
      cases cs with
      | nil => exact nonempty rfl
      | cons c others =>
        rw [List.takeWhile_cons] at zero
        split at zero
        · cases zero
          exact noZero _ rfl
        · cases zero

theorem of_fractionPart? {cs point rest : List Char} (read : fractionPart? cs = some (point, rest)) :
    ∃ fraction : List Char, fraction.all Char.isDigit = true ∧
      point = if fraction.isEmpty then [] else '.' :: fraction := by
  unfold fractionPart? at read
  split at read
  · simp only [Option.map_eq_some_iff, Prod.exists, Prod.mk.injEq] at read
    obtain ⟨run, others, found, rfl, rfl⟩ := read
    obtain ⟨nonempty, areDigits⟩ := of_digits? found
    exact ⟨run, areDigits, by simp [nonempty]⟩
  · cases read
    exact ⟨[], rfl, rfl⟩

theorem of_exponentPart? {cs exponent rest : List Char} (read : exponentPart? cs = some (exponent, rest)) :
    ∃ part? : Option ExponentPart, exponent = match part? with
      | none => []
      | some part => part.chars := by
  have part (below : Bool) {run others behind : List Char} (found : digits? others = some (run, behind)) :
      ∃ part : ExponentPart, 'e' :: (if below then '-' else '+') :: run = part.chars := by
    obtain ⟨nonempty, areDigits⟩ := of_digits? found
    exact ⟨⟨'e', below, run, rfl, nonempty, areDigits⟩, rfl⟩
  unfold exponentPart? at read
  split at read
  · cases read
    exact ⟨none, rfl⟩
  · split at read
    · split at read
      all_goals
        simp only [Option.map_eq_some_iff, Prod.exists, Prod.mk.injEq] at read
        obtain ⟨run, others, found, rfl, rfl⟩ := read
      · obtain ⟨made, same⟩ := part true found
        exact ⟨some made, same⟩
      · obtain ⟨made, same⟩ := part false found
        exact ⟨some made, same⟩
      · obtain ⟨made, same⟩ := part false found
        exact ⟨some made, same⟩
    · cases read
      exact ⟨none, rfl⟩

/-- What JSON reads as a number is a literal. -/
theorem exists_literal_of_number? {cs chars rest : List Char} (read : number? cs = some (chars, rest)) :
    ∃ literal : NumberLiteral, literal.chars = chars := by
  have unsigned (negative : Bool) {cs chars rest : List Char} (read : unsigned? cs = some (chars, rest)) :
      ∃ literal : NumberLiteral, literal.chars = (if negative then ['-'] else []) ++ chars := by
    simp only [unsigned?, Option.bind_eq_bind, Option.bind_eq_some_iff, Prod.exists, Option.pure_def,
      Option.some.injEq, Prod.mk.injEq] at read
    obtain ⟨whole, _, integer, point, _, fraction, exponent, _, last, rfl, rfl⟩ := read
    obtain ⟨shape, wholeDigits⟩ := of_integerPart? integer
    obtain ⟨places, fractionDigits, rfl⟩ := of_fractionPart? fraction
    obtain ⟨part?, rfl⟩ := of_exponentPart? last
    refine ⟨⟨negative, whole, places, part?, shape, wholeDigits, fractionDigits⟩, ?_⟩
    cases part? <;>
      simp [NumberLiteral.chars, NumberLiteral.signChars, NumberLiteral.pointChars,
        NumberLiteral.exponentChars]
  unfold number? at read
  split at read
  · simp only [Option.map_eq_some_iff, Prod.exists, Prod.mk.injEq] at read
    obtain ⟨chars', _, found, rfl, rfl⟩ := read
    obtain ⟨literal, same⟩ := unsigned true found
    exact ⟨literal, same⟩
  · obtain ⟨literal, same⟩ := unsigned false read
    exact ⟨literal, same⟩

theorem exists_literal_of_literal? {text spelled : String} (read : literal? text = some spelled) :
    ∃ literal : NumberLiteral, literal.text = spelled := by
  unfold literal? at read
  split at read
  · rename_i chars found
    cases read
    obtain ⟨literal, rfl⟩ := exists_literal_of_number? found
    exact ⟨literal, rfl⟩
  · cases read

end Json

end ClassSchema
