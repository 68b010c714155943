import ClassSchema.Proofs.NumberLiterals

/-! # Written numbers

Integers and decimals are written as number literals. The literal of an integer is a plain numeral with its
value. The literal of a decimal has its digits and its scale, except that up to fifteen zeros which a
negative scale leaves away are written out; the value is the same.
-/

namespace ClassSchema

private theorem head?_append {left : List Char} (nonempty : left ≠ []) (right : List Char) :
    (left ++ right).head? = left.head? := by
  cases left with
  | nil => exact absurd rfl nonempty
  | cons c rest => rfl

theorem head?_toDigits_ne_zero {n : Nat} (positive : 0 < n) : (Nat.toDigits 10 n).head? ≠ some '0' := by
  induction n using Nat.strongRecOn with
  | ind n ih =>
    by_cases small : n < 10
    · rw [Nat.toDigits_of_lt_base small, List.head?_cons]
      intro zero
      have isZero := Nat.digitChar_eq_zero.mp (Option.some.inj zero)
      omega
    · rw [Nat.toDigits_of_base_le (by decide) (by omega), head?_append Nat.toDigits_ne_nil]
      exact ih (n / 10) (by omega) (by omega)

theorem toList_toString_int (value : Int) :
    (toString value).toList =
      (if value < 0 then ['-'] else []) ++ Nat.toDigits 10 value.natAbs := by
  cases value with
  | ofNat n =>
    have nonneg : ¬ (Int.ofNat n < 0) := by simp
    rw [if_neg nonneg]
    change (toString n).toList = _
    simp
  | negSucc n =>
    rw [if_pos (Int.negSucc_lt_zero n)]
    change ("-" ++ toString (n + 1)).toList = _
    simp

/-- The literal of an integer. -/
def NumberLiteral.ofInt (value : Int) : NumberLiteral where
  negative := decide (value < 0)
  whole := Nat.toDigits 10 value.natAbs
  fraction := []
  exponent? := none
  wholeShape := by
    rcases Nat.eq_zero_or_pos value.natAbs with zero | positive
    · rw [zero]
      exact .inl rfl
    · exact .inr ⟨Nat.toDigits_ne_nil, head?_toDigits_ne_zero positive⟩
  wholeDigits := isDigit_toDigits _
  fractionDigits := rfl

namespace NumberLiteral

theorem isPlain_ofInt (value : Int) : (ofInt value).IsPlain :=
  ⟨rfl, rfl⟩

theorem text_ofInt (value : Int) : (ofInt value).text = toString value := by
  apply String.toList_injective
  rw [toList_toString_int]
  simp [text, chars, signChars, pointChars, exponentChars, ofInt]

theorem signed_ofInt (value : Int) : (ofInt value).signed = value := by
  simp only [signed, digits, ofInt, List.append_nil, decimalValue_toDigits, decide_eq_true_eq]
  split <;> omega

end NumberLiteral

/-- The written form of an integer is read back. -/
theorem parseInteger_toString (value : Int) : parseInteger (toString value) = .ok value := by
  have read := (NumberLiteral.ofInt value).signedNumeral_of_plain (NumberLiteral.isPlain_ofInt value)
  rw [NumberLiteral.signed_ofInt] at read
  rw [← NumberLiteral.text_ofInt, parseInteger, NumberLiteral.text, String.toList_ofList, read]

namespace Decimal

/-- The zero of the least scale, which has no written form: the negation of the scale overflows. -/
def leastZero : Decimal := ⟨0, wordMin⟩

theorem ne_leastZero_of_lt {decimal : Decimal} (above : wordMin < decimal.scale) : decimal ≠ leastZero := by
  rintro rfl
  exact Int.lt_irrefl _ above

/-- A decimal as it is read from its written form. -/
def written (decimal : Decimal) : Decimal :=
  if decimal.digits ≠ 0 ∧ -15 ≤ decimal.scale ∧ decimal.scale < 0 then
    ⟨decimal.digits * 10 ^ (-decimal.scale).toNat, 0⟩
  else decimal

/-- The exponent part of a positive exponent. -/
def exponentPart (mark : Char) (isMark : isExponentMark mark = true) (below : Bool) (exponent : Int) :
    ExponentPart :=
  ⟨mark, below, Nat.toDigits 10 exponent.natAbs, isMark, Nat.toDigits_ne_nil, isDigit_toDigits _⟩

theorem chars_exponentPart {mark : Char} (isMark : isExponentMark mark = true) (below : Bool) {exponent : Int}
    (positive : 0 < exponent) :
    (exponentPart mark isMark below exponent).chars =
      mark :: (if below then '-' else '+') :: (toString exponent).toList := by
  rw [toList_toString_int, if_neg (Int.not_lt.mpr (Int.le_of_lt positive)), ExponentPart.chars, exponentPart]
  rfl

theorem value_exponentPart {mark : Char} (isMark : isExponentMark mark = true) (below : Bool) {exponent : Int}
    (positive : 0 < exponent) :
    (exponentPart mark isMark below exponent).value = if below then -exponent else exponent := by
  simp only [ExponentPart.value, exponentPart, decimalValue_toDigits]
  split <;> omega

/-- Digits of a positive number, a part of them or more of them, start with no zero. -/
theorem wholeShape_of_prefix {n : Nat} (positive : 0 < n) {whole : List Char} (rest more : List Char)
    (nonempty : whole ≠ []) (same : whole ++ rest = Nat.toDigits 10 n ++ more) :
    whole = ['0'] ∨ whole ≠ [] ∧ whole.head? ≠ some '0' := by
  refine .inr ⟨nonempty, fun zero => head?_toDigits_ne_zero positive ?_⟩
  have heads := congrArg List.head? same
  rwa [head?_append nonempty, head?_append Nat.toDigits_ne_nil, zero,
    eq_comm] at heads

/-- What is said of the literal of a positive number with a scale. -/
structure Spells (literal : NumberLiteral) (negative : Bool) (n : Nat) (scale : Int) : Prop where
  chars : literal.chars =
    (if negative then ['-'] else []) ++ magnitudeText (Nat.toDigits 10 n) scale
  hasScale : literal.HasScale
  negative : literal.negative = negative
  value : if -15 ≤ scale ∧ scale < 0 then literal.digits = n * 10 ^ (-scale).toNat ∧ literal.scale = 0
    else literal.digits = n ∧ literal.scale = scale

section Magnitude

variable (negative : Bool) {n : Nat} {scale : Int}

private theorem hasScale_of_ranges {literal : NumberLiteral} (least : wordMin < literal.exponent)
    (most : literal.exponent ≤ -wordMin) (scaleLeast : wordMin ≤ literal.scale)
    (scaleMost : literal.scale ≤ wordMax) : literal.HasScale := by
  have isWord : isWord literal.scale = true := by
    rw [ClassSchema.isWord, Bool.and_eq_true, decide_eq_true_eq, decide_eq_true_eq]
    exact ⟨scaleLeast, scaleMost⟩
  unfold wordMin at least most
  exact ⟨by omega, by omega, isWord⟩

private theorem take_one_append_tail (digits : List Char) : digits.take 1 ++ digits.tail = digits := by
  cases digits <;> rfl

/-- Many zeros behind the point: one digit before it, and an exponent. -/
theorem exists_spells_of_small (positive : 0 < n) (below : scale ≤ wordMax)
    (small : ((Nat.toDigits 10 n).length : Int) + 5 < scale) : ∃ literal, Spells literal negative n scale := by
  have nonempty := @Nat.length_toDigits_pos 10 n
  have exponentPositive : 0 < scale - (Nat.toDigits 10 n).length + 1 := by omega
  have isMark : isExponentMark 'E' = true := rfl
  have split := take_one_append_tail (Nat.toDigits 10 n)
  have areDigits := isDigit_toDigits n
  rw [← split, List.all_append, Bool.and_eq_true] at areDigits
  let literal : NumberLiteral :=
    { negative, whole := (Nat.toDigits 10 n).take 1, fraction := (Nat.toDigits 10 n).tail
      exponent? := some (exponentPart 'E' isMark true (scale - (Nat.toDigits 10 n).length + 1))
      wholeShape := wholeShape_of_prefix positive (Nat.toDigits 10 n).tail [] (by simp)
        (by rw [split, List.append_nil])
      wholeDigits := areDigits.1, fractionDigits := areDigits.2 }
  have exponent : literal.exponent = -(scale - (Nat.toDigits 10 n).length + 1) :=
    value_exponentPart isMark true exponentPositive
  have scaled : literal.scale = scale := by
    rw [NumberLiteral.scale, exponent]
    change ((Nat.toDigits 10 n).tail.length : Int) - _ = scale
    rw [List.length_tail]
    omega
  refine ⟨literal, ?_, ?_, rfl, ?_⟩
  · rw [magnitudeText, if_pos small]
    simp only [NumberLiteral.chars, NumberLiteral.signChars, NumberLiteral.pointChars,
      NumberLiteral.exponentChars, literal, chars_exponentPart isMark true exponentPositive,
      List.append_assoc]
    rfl
  · unfold wordMax at below
    apply hasScale_of_ranges <;> simp only [exponent, scaled, wordMin, wordMax] <;> omega
  · rw [if_neg (by omega)]
    refine ⟨?_, scaled⟩
    simp only [NumberLiteral.digits, literal, split, decimalValue_toDigits]

/-- Many zeros behind the digits: they are counted by an exponent, which may be the negation of the least scale. -/
theorem exists_spells_of_large (positive : 0 < n) (above : wordMin ≤ scale) (large : scale < -15) :
    ∃ literal, Spells literal negative n scale := by
  have exponentPositive : 0 < -scale := by omega
  have isMark : isExponentMark 'e' = true := rfl
  let literal : NumberLiteral :=
    { negative, whole := Nat.toDigits 10 n, fraction := []
      exponent? := some (exponentPart 'e' isMark false (-scale))
      wholeShape := .inr ⟨Nat.toDigits_ne_nil, head?_toDigits_ne_zero positive⟩
      wholeDigits := isDigit_toDigits n, fractionDigits := rfl }
  have exponent : literal.exponent = -scale := value_exponentPart isMark false exponentPositive
  have scaled : literal.scale = scale := by
    rw [NumberLiteral.scale, exponent]
    change (0 : Int) - -scale = scale
    omega
  have text : magnitudeText (Nat.toDigits 10 n) scale =
      Nat.toDigits 10 n ++ "e+".toList ++ (toString (-scale)).toList := by
    rw [magnitudeText, if_neg (by omega), if_pos large]
  refine ⟨literal, ?_, ?_, rfl, ?_⟩
  · simp only [text, NumberLiteral.chars, NumberLiteral.signChars, NumberLiteral.pointChars,
      NumberLiteral.exponentChars, literal, chars_exponentPart isMark false exponentPositive,
      List.append_assoc]
    rfl
  · unfold wordMin at above
    apply hasScale_of_ranges <;> simp only [exponent, scaled, wordMin, wordMax] <;> omega
  · rw [if_neg (by omega)]
    refine ⟨?_, scaled⟩
    simp only [NumberLiteral.digits, literal, List.append_nil, decimalValue_toDigits]

/-- Few zeros behind the digits, or none: they are written. -/
theorem exists_spells_of_whole (positive : 0 < n) (few : -15 ≤ scale) (whole : scale ≤ 0) :
    ∃ literal, Spells literal negative n scale := by
  let literal : NumberLiteral :=
    { negative, whole := Nat.toDigits 10 n ++ zeroRun (-scale).toNat, fraction := [], exponent? := none
      wholeShape := wholeShape_of_prefix positive [] (zeroRun (-scale).toNat) (by simp) (List.append_nil _)
      wholeDigits := by
        rw [List.all_append, isDigit_toDigits, zeroRun, List.all_replicate]
        split <;> rfl
      fractionDigits := rfl }
  have scaled : literal.scale = 0 := rfl
  refine ⟨literal, ?_, ?_, rfl, ?_⟩
  · have text : magnitudeText (Nat.toDigits 10 n) scale = Nat.toDigits 10 n ++ zeroRun (-scale).toNat := by
      rw [magnitudeText, if_neg (by omega), if_neg (by omega), if_pos whole]
    simp only [text, NumberLiteral.chars, NumberLiteral.signChars, NumberLiteral.pointChars,
      NumberLiteral.exponentChars, literal, List.isEmpty_nil, if_true, List.append_nil]
  · have exponent : literal.exponent = 0 := rfl
    apply hasScale_of_ranges <;> simp only [exponent, scaled, wordMin, wordMax] <;> omega
  · have digits : literal.digits = 10 ^ (-scale).toNat * n := by
      simp only [NumberLiteral.digits, literal, List.append_nil, decimalValue_append, zeroRun,
        List.length_replicate, decimalValue_toDigits, decimalValue_replicate_zero, Nat.add_zero]
    rw [digits, scaled]
    split
    · exact ⟨Nat.mul_comm _ _, rfl⟩
    · obtain rfl : scale = 0 := by omega
      exact ⟨Nat.one_mul n, rfl⟩

/-- A point among the digits. -/
theorem exists_spells_of_inside (positive : 0 < n) (fractional : 0 < scale)
    (inside : scale < (Nat.toDigits 10 n).length) (below : scale ≤ wordMax) :
    ∃ literal, Spells literal negative n scale := by
  let places := (Nat.toDigits 10 n).length - scale.toNat
  have split := List.take_append_drop places (Nat.toDigits 10 n)
  have areDigits := isDigit_toDigits n
  rw [← split, List.all_append, Bool.and_eq_true] at areDigits
  have wholeLength : ((Nat.toDigits 10 n).take places).length = places := by
    rw [List.length_take]
    omega
  have length : ((Nat.toDigits 10 n).drop places).length = scale.toNat := by
    rw [List.length_drop]
    omega
  let literal : NumberLiteral :=
    { negative, whole := (Nat.toDigits 10 n).take places, fraction := (Nat.toDigits 10 n).drop places
      exponent? := none
      wholeShape := wholeShape_of_prefix positive ((Nat.toDigits 10 n).drop places) []
        (List.ne_nil_of_length_pos (by omega)) (by rw [split, List.append_nil])
      wholeDigits := areDigits.1, fractionDigits := areDigits.2 }
  have exponent : literal.exponent = 0 := rfl
  have scaled : literal.scale = scale := by
    rw [NumberLiteral.scale, exponent]
    change (((Nat.toDigits 10 n).drop places).length : Int) - 0 = scale
    omega
  refine ⟨literal, ?_, ?_, rfl, ?_⟩
  · have written : ((Nat.toDigits 10 n).drop places).isEmpty = false := by
      rw [← Bool.not_eq_true, List.isEmpty_iff_length_eq_zero]
      omega
    have text : magnitudeText (Nat.toDigits 10 n) scale =
        (Nat.toDigits 10 n).take places ++ '.' :: (Nat.toDigits 10 n).drop places := by
      rw [magnitudeText, if_neg (by omega), if_neg (by omega), if_neg (by omega)]
      exact if_pos (by omega)
    simp only [text, NumberLiteral.chars, NumberLiteral.signChars, NumberLiteral.pointChars,
      NumberLiteral.exponentChars, literal, written, Bool.false_eq_true, if_false, List.append_nil]
  · apply hasScale_of_ranges <;> simp only [exponent, scaled, wordMin] <;> omega
  · rw [if_neg (by omega)]
    refine ⟨?_, scaled⟩
    simp only [NumberLiteral.digits, literal, split, decimalValue_toDigits]

/-- A point before all digits, with few zeros behind it. -/
theorem exists_spells_of_front (front : (Nat.toDigits 10 n).length ≤ scale)
    (few : scale ≤ (Nat.toDigits 10 n).length + 5) (below : scale ≤ wordMax) :
    ∃ literal, Spells literal negative n scale := by
  have nonempty := @Nat.length_toDigits_pos 10 n
  let zeros := zeroRun (scale.toNat - (Nat.toDigits 10 n).length)
  have zerosLength : zeros.length = scale.toNat - (Nat.toDigits 10 n).length := List.length_replicate
  let literal : NumberLiteral :=
    { negative, whole := ['0'], fraction := zeros ++ Nat.toDigits 10 n, exponent? := none
      wholeShape := .inl rfl, wholeDigits := rfl
      fractionDigits := by
        rw [List.all_append, isDigit_toDigits, Bool.and_true]
        simp only [zeros, zeroRun, List.all_replicate]
        split <;> rfl }
  have exponent : literal.exponent = 0 := rfl
  have scaled : literal.scale = scale := by
    rw [NumberLiteral.scale, exponent]
    change ((zeros ++ Nat.toDigits 10 n).length : Int) - 0 = scale
    rw [List.length_append]
    omega
  refine ⟨literal, ?_, ?_, rfl, ?_⟩
  · have written : (zeros ++ Nat.toDigits 10 n).isEmpty = false := by
      rw [← Bool.not_eq_true, List.isEmpty_iff_length_eq_zero, List.length_append]
      omega
    have text : magnitudeText (Nat.toDigits 10 n) scale = '0' :: '.' :: zeros ++ Nat.toDigits 10 n := by
      rw [magnitudeText, if_neg (by omega), if_neg (by omega), if_neg (by omega)]
      exact if_neg (by omega)
    simp only [text, NumberLiteral.chars, NumberLiteral.signChars, NumberLiteral.pointChars,
      NumberLiteral.exponentChars, literal, written, Bool.false_eq_true, if_false, List.append_nil]
    rfl
  · apply hasScale_of_ranges <;> simp only [exponent, scaled, wordMin] <;> omega
  · rw [if_neg (by omega)]
    refine ⟨?_, scaled⟩
    have zero : decimalValue ['0'] = 0 := rfl
    simp only [NumberLiteral.digits, literal, decimalValue_append, zeros, zeroRun, decimalValue_toDigits,
      decimalValue_replicate_zero, zero, Nat.mul_zero, Nat.zero_add]

/-- The written form of a positive number with a scale is a literal. -/
theorem exists_spells (positive : 0 < n) (above : wordMin ≤ scale) (below : scale ≤ wordMax) :
    ∃ literal, Spells literal negative n scale := by
  by_cases small : ((Nat.toDigits 10 n).length : Int) + 5 < scale
  · exact exists_spells_of_small negative positive below small
  by_cases large : scale < -15
  · exact exists_spells_of_large negative positive above large
  by_cases whole : scale ≤ 0
  · exact exists_spells_of_whole negative positive (by omega) whole
  by_cases inside : scale < (Nat.toDigits 10 n).length
  · exact exists_spells_of_inside negative positive (by omega) inside below
  · exact exists_spells_of_front negative (by omega) (by omega) below

/-- The negation of a scale overflows only at the least one. -/
theorem negateScale?_eq_some (above : wordMin < scale) (below : scale ≤ wordMax) :
    negateScale? scale = some (-scale) := by
  unfold wordMin at above
  unfold wordMax at below
  refine if_pos ?_
  rw [isWord, Bool.and_eq_true, decide_eq_true_eq, decide_eq_true_eq, wordMin, wordMax]
  omega

/-- The written form of zero with a scale is a literal, with all its places or with an exponent. -/
theorem exists_zero_literal (above : wordMin < scale) (below : scale ≤ wordMax) :
    ∃ literal : NumberLiteral, zeroText? scale = some literal.chars ∧ literal.HasScale ∧ literal.signed = 0 ∧
      literal.scale = scale := by
  have zero : decimalValue ['0'] = 0 := rfl
  by_cases fractional : 0 ≤ scale
  · let literal : NumberLiteral :=
      { negative := false, whole := ['0'], fraction := zeroRun scale.toNat, exponent? := none
        wholeShape := .inl rfl, wholeDigits := rfl
        fractionDigits := by
          rw [zeroRun, List.all_replicate]
          split <;> rfl }
    have exponent : literal.exponent = 0 := rfl
    have scaled : literal.scale = scale := by
      rw [NumberLiteral.scale, exponent]
      change ((zeroRun scale.toNat).length : Int) - 0 = scale
      rw [zeroRun, List.length_replicate]
      omega
    refine ⟨literal, ?_, ?_, ?_, scaled⟩
    · rcases Int.lt_or_eq_of_le fractional with positive | rfl
      · obtain ⟨count, places⟩ := Nat.exists_eq_succ_of_ne_zero (show scale.toNat ≠ 0 by omega)
        rw [zeroText?, if_neg (by omega), if_pos positive]
        simp only [NumberLiteral.chars, NumberLiteral.signChars, NumberLiteral.pointChars,
          NumberLiteral.exponentChars, literal, zeroRun, places, List.replicate_succ, List.isEmpty_cons,
          Bool.false_eq_true, if_false, List.append_nil]
        rfl
      · rfl
    · apply hasScale_of_ranges <;> simp only [exponent, scaled, wordMin] <;> omega
    · simp only [NumberLiteral.signed, NumberLiteral.digits, literal, decimalValue_append, zeroRun,
        decimalValue_replicate_zero, zero]
      rfl
  · have exponentPositive : 0 < -scale := by omega
    have isMark : isExponentMark 'E' = true := rfl
    let literal : NumberLiteral :=
      { negative := false, whole := ['0'], fraction := []
        exponent? := some (exponentPart 'E' isMark false (-scale))
        wholeShape := .inl rfl, wholeDigits := rfl, fractionDigits := rfl }
    have exponent : literal.exponent = -scale := value_exponentPart isMark false exponentPositive
    have scaled : literal.scale = scale := by
      rw [NumberLiteral.scale, exponent]
      change (0 : Int) - -scale = scale
      omega
    refine ⟨literal, ?_, ?_, rfl, scaled⟩
    · rw [zeroText?, if_neg (by omega), if_neg (by omega), negateScale?_eq_some above below, Option.map_some]
      simp only [NumberLiteral.chars, NumberLiteral.signChars, NumberLiteral.pointChars,
        NumberLiteral.exponentChars, literal, chars_exponentPart isMark false exponentPositive]
      rfl
    · unfold wordMin at above
      apply hasScale_of_ranges <;> simp only [exponent, scaled, wordMin, wordMax] <;> omega

end Magnitude

/-- The written form of every decimal but one is a literal, whose value is the decimal with few zeros written
out. -/
theorem exists_literal {decimal : Decimal} (fits : isWord decimal.scale = true) (other : decimal ≠ leastZero) :
    ∃ literal : NumberLiteral, decimal.text? = some literal.text ∧ literal.HasScale ∧
      Decimal.mk literal.signed literal.scale = decimal.written := by
  obtain ⟨digits, scale⟩ := decimal
  rw [isWord, Bool.and_eq_true, decide_eq_true_eq, decide_eq_true_eq] at fits
  obtain ⟨least, below⟩ := fits
  by_cases zero : digits = 0
  · subst zero
    have above : wordMin < scale := Int.lt_iff_le_and_ne.mpr ⟨least, fun same => other (by rw [leastZero, same])⟩
    obtain ⟨literal, chars, hasScale, signed, scaled⟩ := exists_zero_literal above below
    refine ⟨literal, ?_, hasScale, ?_⟩
    · rw [text?, if_pos rfl, chars]
      rfl
    · rw [signed, scaled]
      rfl
  · obtain ⟨literal, chars, hasScale, negative, value⟩ :=
      exists_spells (decide (digits < 0)) (Int.natAbs_pos.mpr zero) least below
    refine ⟨literal, ?_, hasScale, ?_⟩
    · rw [NumberLiteral.text, chars, text?, if_neg zero]
      by_cases below : digits < 0 <;> simp [below]
    · have signed (factor : Nat) : (if literal.negative then -((digits.natAbs * factor : Nat) : Int)
          else (digits.natAbs * factor : Nat)) = digits * factor := by
        rw [negative, Int.natCast_mul]
        by_cases below : digits < 0
        · rw [if_pos (decide_eq_true below), ← Int.neg_mul, show -(digits.natAbs : Int) = digits by omega]
        · rw [if_neg (by simpa using below), show (digits.natAbs : Int) = digits by omega]
      by_cases few : -15 ≤ scale ∧ scale < 0
      · have same : written ⟨digits, scale⟩ = ⟨digits * 10 ^ (-scale).toNat, 0⟩ := if_pos ⟨zero, few⟩
        simp only at value
        rw [if_pos few] at value
        rw [same, NumberLiteral.signed, value.1, value.2, signed, Int.natCast_pow]
        rfl
      · have same : written ⟨digits, scale⟩ = ⟨digits, scale⟩ := if_neg fun all => few all.2
        have unscaled := signed 1
        simp only at value
        rw [if_neg few] at value
        rw [Nat.mul_one, Int.natCast_one, Int.mul_one] at unscaled
        rw [same, NumberLiteral.signed, value.1, value.2, unscaled]

/-- Every decimal but one has a written form. -/
theorem text?_eq_none_iff {decimal : Decimal} (fits : isWord decimal.scale = true) :
    decimal.text? = none ↔ decimal = leastZero := by
  constructor
  · intro unwritten
    refine Decidable.byContradiction fun other => ?_
    obtain ⟨literal, text, _⟩ := exists_literal fits other
    cases unwritten.symm.trans text
  · rintro rfl
    rfl

/-- How a decimal is spelled where it has a written form. -/
def spelling (decimal : Decimal) : String :=
  decimal.text?.getD ""

/-- The written form of every decimal but one is read back. -/
theorem parse_spelling_eq {decimal : Decimal} (fits : isWord decimal.scale = true) (other : decimal ≠ leastZero) :
    parse decimal.spelling = .ok decimal.written := by
  obtain ⟨literal, text, hasScale, value⟩ := exists_literal fits other
  have parsed := literal.parse_text
  rw [if_pos hasScale, value] at parsed
  rwa [spelling, text, Option.getD_some]

/-- Zeros at the end that are written out change the scale, not the value. -/
theorem reduced_written (decimal : Decimal) : decimal.written.reduced = decimal.reduced := by
  obtain ⟨digits, scale⟩ := decimal
  by_cases few : digits ≠ 0 ∧ -15 ≤ scale ∧ scale < 0
  · obtain ⟨count, rfl⟩ : ∃ count : Nat, scale = -count := ⟨(-scale).toNat, by omega⟩
    have power : (10 : Int) ^ count = ((10 ^ count : Nat) : Int) := (Int.natCast_pow 10 count).symm
    have powerPositive : 0 < 10 ^ count := Nat.pow_pos (by decide)
    have same : written ⟨digits, -count⟩ = ⟨digits * (10 ^ count : Nat), 0⟩ := by
      rw [written, if_pos few, show (- -(count : Int)).toNat = count by omega, power]
    have nonzero : digits * ((10 ^ count : Nat) : Int) ≠ 0 := Int.mul_ne_zero few.1 (by omega)
    have zeros : trailingZeros (digits * ((10 ^ count : Nat) : Int)).natAbs =
        trailingZeros digits.natAbs + count := by
      rw [Int.natAbs_mul, Int.natAbs_natCast, trailingZeros_mul_pow (Int.natAbs_pos.mpr few.1)]
    have split : ((Nat.pow 10 (trailingZeros digits.natAbs + count) : Nat) : Int) =
        (Nat.pow 10 (trailingZeros digits.natAbs) : Nat) * (10 ^ count : Nat) := by
      rw [← Int.natCast_mul]
      exact congrArg Int.ofNat (Nat.pow_add 10 _ _)
    rw [same, reduced, reduced, if_neg nonzero, if_neg few.1]
    simp only [zeros, split]
    rw [Int.mul_tdiv_mul_of_pos_left _ _ (by omega)]
    congr 1
    omega
  · rw [written, if_neg few]

/-- A decimal as it is read from its written form has the same value. -/
theorem sameValue_written (decimal : Decimal) : decimal.written.sameValue decimal = true := by
  rw [sameValue, reduced_written, beq_self_eq_true]

/-- A decimal is written again as it was read from its written form. -/
theorem text?_written (decimal : Decimal) : decimal.written.text? = decimal.text? := by
  obtain ⟨digits, scale⟩ := decimal
  by_cases few : digits ≠ 0 ∧ -15 ≤ scale ∧ scale < 0
  · obtain ⟨nonzero, least, negative⟩ := few
    have power : (0 : Int) < 10 ^ (-scale).toNat := Int.pow_pos (by decide)
    have same : written ⟨digits, scale⟩ = ⟨digits * 10 ^ (-scale).toNat, 0⟩ := if_pos ⟨nonzero, least, negative⟩
    have stillNonzero : digits * 10 ^ (-scale).toNat ≠ 0 := Int.mul_ne_zero nonzero (Int.ne_of_gt power)
    have sign : digits * 10 ^ (-scale).toNat < 0 ↔ digits < 0 := by
      constructor
      · intro below
        exact Int.not_le.mp fun above => Int.not_le.mpr below (Int.mul_nonneg above (Int.le_of_lt power))
      · exact fun below => Int.mul_neg_of_neg_of_pos below power
    have magnitude : (digits * 10 ^ (-scale).toNat).natAbs = digits.natAbs * 10 ^ (-scale).toNat := by
      rw [Int.natAbs_mul, Int.natAbs_pow]
      rfl
    have digitText : magnitudeText (Nat.toDigits 10 (digits.natAbs * 10 ^ (-scale).toNat)) 0 =
        magnitudeText (Nat.toDigits 10 digits.natAbs) scale := by
      rw [magnitudeText, magnitudeText, if_neg (by omega), if_neg (by omega), if_pos (by omega),
        if_neg (by omega), if_neg (by omega), if_pos (by omega),
        toDigits_mul_pow (Int.natAbs_pos.mpr nonzero)]
      simp [zeroRun]
    rw [same, text?, text?, if_neg stillNonzero, if_neg nonzero]
    simp only [magnitude, digitText, sign]
  · rw [written, if_neg few]

end Decimal

end ClassSchema
