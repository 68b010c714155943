import ClassSchema.Proofs.Dates
import ClassSchema.Proofs.JsonNumbers
import ClassSchema.Validation.Report

/-! # Verdicts on scalars

Coercions and the rules for validators decide alike on texts, truth values and dates. On other scalars they
differ: a pattern's blanks are not those of a URI, a rule asks nothing of a number's scale, and it takes a
number for an integer if its nearest double is one. The main statement says exactly where both agree.
-/

namespace ClassSchema

namespace Binary64

theorem divideToEven_of_dvd {num den : Nat} (divides : den ∣ num) : divideToEven num den = num / den := by
  obtain ⟨quotient, rfl⟩ := divides
  unfold divideToEven
  simp only [Nat.mul_mod_right, Nat.mul_zero]
  cases den with
  | zero => simp
  | succ den => rw [if_pos (Nat.succ_pos den)]

/-- The double nearest to an integer is one, or infinite. -/
theorem isIntegral?_ofQuotient {num den : Nat} (positive : 0 < den) (divides : den ∣ num) (negative : Bool) :
    (ofQuotient negative num den).isIntegral? ≠ some false := by
  unfold ofQuotient
  split
  · simp [isIntegral?]
  · simp only
    split
    · simp [isIntegral?]
    · simp only [isIntegral?, ne_eq, Option.some.injEq, Bool.or_eq_false_iff, decide_eq_false_iff_not,
        beq_eq_false_iff_ne, not_and, Classical.not_not]
      intro below
      -- below zero the exponent only shifts the quotient, which is exact
      have shifted : den ∣ num * Nat.pow 2 (-exponentOf num den).toNat := Nat.dvd_mul_right_of_dvd divides _
      obtain ⟨quotient, rfl⟩ := divides
      rw [scaled, if_neg below, divideToEven_of_dvd shifted, Nat.mul_assoc, Nat.mul_div_cancel_left _ positive,
        Nat.mul_mod_left]

theorem isIntegral?_ofDecimal {digits : Nat} {scale : Int} (integral : 10 ^ scale.toNat ∣ digits)
    (negative : Bool) : (ofDecimal negative digits (-scale)).isIntegral? ≠ some false := by
  unfold ofDecimal
  split
  · simp [isIntegral?]
  · split
    · simp [isIntegral?]
    · split
      · simp [isIntegral?]
      · split
        · exact isIntegral?_ofQuotient Nat.one_pos (Nat.one_dvd _) negative
        · rw [Int.neg_neg]
          exact isIntegral?_ofQuotient (Nat.pow_pos (by decide)) integral negative

end Binary64

namespace NumberLiteral

variable (literal : NumberLiteral)

/-- The double that stands for a literal where integers are told from other numbers. -/
def double : Binary64 :=
  .ofDecimal literal.negative literal.digits (-literal.scale)

/-- Only a plain numeral is a word. -/
theorem isPlain_of_isWordLiteral (word : isWordLiteral literal.text = true) : literal.IsPlain := by
  apply Classical.byContradiction
  intro notPlain
  obtain ⟨c, member, strange⟩ := literal.exists_strange_of_not_plain notPlain
  simp only [isWordLiteral, text, String.toList_ofList, splitSign_chars] at word
  split at word
  · rename_i read
    have digit := List.all_eq_true.mp (areDigits_of_digitsInBase? read) c member
    rw [digit] at strange
    cases strange
  · cases word

theorem isIntegral_of_plain (plain : literal.IsPlain) : literal.IsIntegral := by
  simp [IsIntegral, scale, exponent, plain.1, plain.2]

/-- What reads as an integer has an integral double, or an infinite one. -/
theorem isIntegral?_double (integer : literal.IsPlain ∨ literal.HasScale ∧ literal.IsIntegral) :
    literal.double.isIntegral? ≠ some false :=
  Binary64.isIntegral?_ofDecimal (integer.elim literal.isIntegral_of_plain And.right) literal.negative

/-- Whether the double of a literal is a verdict on whether it reads as an integer: it has a fraction, or
it has none and the literal reads as an integer. -/
def DoubleDecides : Prop :=
  literal.double.isIntegral? = some false ∨
    literal.double.isIntegral? = some true ∧ (literal.IsPlain ∨ literal.HasScale ∧ literal.IsIntegral)

theorem isIntegerLiteral?_eq_iff :
    isIntegerLiteral? literal.text = some (parseInteger literal.text).isOk ↔
      isWordLiteral literal.text = true ∨ literal.DoubleDecides := by
  have reads := literal.isOk_parseInteger_text_iff
  unfold isIntegerLiteral?
  by_cases word : isWordLiteral literal.text = true
  · have plain := literal.isPlain_of_isWordLiteral word
    simp [word, reads.mpr (.inl plain)]
  · have measured : (Binary64.ofLiteral? literal.text).bind Binary64.isIntegral? =
        literal.double.isIntegral? := by
      rw [ofLiteral?_text]
      rfl
    have exact := literal.isIntegral?_double
    rw [← reads] at exact
    rw [if_neg word, measured, DoubleDecides, ← reads]
    clear reads
    generalize (parseInteger literal.text).isOk = reads at exact ⊢
    cases reads <;> simp_all

end NumberLiteral

/-- Where the rule for a kind says of data what the coercion says. Of a URI both must see blanks; a decimal
must have a scale that fits; of an integer that is no word the nearest double must decide. -/
def ScalarKind.HasFaithfulRule : ScalarKind → Data → Prop
  | .uri, .text value => value.toList.any Text.isBlank = value.toList.any isPatternBlank
  | .decimal, .number spelled => ∃ literal : NumberLiteral, literal.text = spelled ∧ literal.HasScale
  | .integer, .number spelled =>
    isWordLiteral spelled = true ∨ ∃ literal : NumberLiteral, literal.text = spelled ∧ literal.DoubleDecides
  | _, _ => True

namespace ScalarRule

/-- The verdict of the rule for a kind, with the format of dates; `none` if there is none. -/
def verdict? (kind : ScalarKind) (data : Data) : Option Bool :=
  (kind.rule.messages? true false data).map List.isEmpty

theorem verdict?_uri (value : String) :
    verdict? .uri (.text value) = some (!value.isEmpty && !value.toList.any isPatternBlank) := by
  have accepted : TextPattern.uri.accepts value = (!value.isEmpty && !value.toList.any isPatternBlank) := by
    rw [TextPattern.accepts, List.not_any_eq_all_not]
  simp only [verdict?, messages?, ScalarKind.rule, JsonType.accepts?, textMessages, Bool.false_and,
    Bool.false_eq_true, if_false, if_true, Option.map_some, Option.some.injEq, Bool.and_false,
    Option.toList_some, List.nil_append, ← accepted]
  cases verdict : TextPattern.uri.accepts value <;> simp [verdict]

theorem isOk_coerce_uri (value : String) :
    (coerceScalar .typed .uri (.text value)).isOk =
      (!value.isEmpty && !value.toList.any Text.isBlank) := by
  have refused : (value.toList.all fun c => !Text.isBlank c) = !value.toList.any Text.isBlank := by
    rw [List.not_any_eq_all_not]
  simp only [coerceScalar, isUriText, refused]
  cases !value.isEmpty && !value.toList.any Text.isBlank <;> rfl

theorem verdict?_date (value : String) :
    verdict? .date (.text value) = some (coerceScalar .typed .date (.text value)).isOk := by
  have coerced : (coerceScalar .typed .date (.text value)).isOk = isDateText value := by
    rw [isDateText_eq_isOk_parse, coerceScalar]
    cases Date.parse value <;> rfl
  rw [coerced]
  simp only [verdict?, messages?, ScalarKind.rule, JsonType.accepts?, textMessages, Bool.false_and,
    Bool.false_eq_true, if_false, if_true, Option.map_some, Option.some.injEq, Bool.true_and,
    Option.toList_some, List.nil_append]
  cases isDate : isDateText value with
  | true => simp [TextPattern.accepts_of_isDateText isDate]
  | false => simp

theorem verdict?_decimal (number : String) : verdict? .decimal (.number number) = some true := by
  simp [verdict?, messages?, ScalarKind.rule, JsonType.accepts?, textMessages]

theorem verdict?_integer (number : String) :
    verdict? .integer (.number number) = isIntegerLiteral? number := by
  simp only [verdict?, messages?, ScalarKind.rule, JsonType.accepts?, textMessages, Bool.false_and,
    Bool.false_eq_true, if_false, Option.map_map]
  cases isIntegerLiteral? number with
  | none => rfl
  | some verdict => cases verdict <;> rfl

theorem isOk_coerce_decimal (literal : NumberLiteral) :
    (coerceScalar .typed .decimal (.number literal.text)).isOk = true ↔ literal.HasScale := by
  have read := literal.parse_text
  simp only [coerceScalar, coerceDecimal, numericLiteral?]
  split at read
  · rename_i scaled
    rw [read]
    exact iff_of_true rfl scaled
  · rename_i unscaled
    obtain ⟨error, failed⟩ := read
    rw [failed]
    exact iff_of_false Bool.false_ne_true unscaled

theorem isOk_coerce_integer (number : String) :
    (coerceScalar .typed .integer (.number number)).isOk = (parseInteger number).isOk := by
  simp only [coerceScalar, coerceInteger, numericLiteral?]
  cases parseInteger number <;> rfl

/-- Of data that is no number, a rule says what the coercion says but for the blanks of URIs. -/
theorem verdict?_of_notNumber (kind : ScalarKind) {data : Data} (notNumber : ∀ number, data ≠ .number number) :
    verdict? kind data = some (coerceScalar .typed kind data).isOk ↔ kind.HasFaithfulRule data := by
  cases data with
  | number number => exact absurd rfl (notNumber number)
  | text value =>
    cases kind with
    | uri =>
      rw [verdict?_uri, isOk_coerce_uri, ScalarKind.HasFaithfulRule]
      by_cases empty : value = ""
      · subst empty
        simp
      · have nonempty : value.isEmpty = false := by simpa using empty
        rw [nonempty]
        cases value.toList.any isPatternBlank <;> cases value.toList.any Text.isBlank <;> simp
    | date => simp [verdict?_date, ScalarKind.HasFaithfulRule]
    | _ =>
      simp [verdict?, messages?, ScalarKind.rule, JsonType.accepts?, textMessages, coerceScalar,
        coerceInteger, coerceDecimal, coerceBoolean, numericLiteral?, ScalarKind.HasFaithfulRule,
        Except.isOk, Except.toBool]
  | _ =>
    cases kind <;>
      simp [verdict?, messages?, ScalarKind.rule, JsonType.accepts?, textMessages, coerceScalar,
        coerceInteger, coerceDecimal, coerceBoolean, numericLiteral?, ScalarKind.HasFaithfulRule,
        Except.isOk, Except.toBool]

/-- A rule says what the coercion says exactly where it is faithful: for every scalar kind, and of all JSON
data, whose numbers are spelled as the reader of JSON keeps them. -/
theorem verdict?_eq_isOk_coerceScalar_iff (kind : ScalarKind) {data : Data}
    (spelled : ∀ number, data = .number number → ∃ text, Json.literal? text = some number) :
    verdict? kind data = some (coerceScalar .typed kind data).isOk ↔ kind.HasFaithfulRule data := by
  cases data with
  | number number =>
    obtain ⟨text, canonical⟩ := spelled number rfl
    obtain ⟨literal, rfl⟩ := Json.exists_literal_of_literal? canonical
    cases kind with
    | decimal =>
      rw [verdict?_decimal, Option.some.injEq, eq_comm, isOk_coerce_decimal, ScalarKind.HasFaithfulRule]
      constructor
      · intro scaled
        exact ⟨literal, rfl, scaled⟩
      · rintro ⟨other, same, scaled⟩
        rw [← isOk_coerce_decimal, ← same, isOk_coerce_decimal]
        exact scaled
    | integer =>
      rw [verdict?_integer, isOk_coerce_integer, literal.isIntegerLiteral?_eq_iff, ScalarKind.HasFaithfulRule]
      constructor
      · rintro (word | decides)
        · exact .inl word
        · exact .inr ⟨literal, rfl, decides⟩
      · rintro (word | ⟨other, same, decides⟩)
        · exact .inl word
        · rw [← literal.isIntegerLiteral?_eq_iff, ← same, other.isIntegerLiteral?_eq_iff]
          exact .inr decides
    | _ =>
      simp [verdict?, messages?, ScalarKind.rule, JsonType.accepts?, textMessages, coerceScalar,
        coerceBoolean, ScalarKind.HasFaithfulRule, Except.isOk, Except.toBool]
  | _ => exact verdict?_of_notNumber kind (by simp)

/-- The rule for integers takes a half whose nearest double is an integer, so it is not faithful there. -/
theorem verdict?_eq_isOk_coerceScalar_iff_half :
    (∀ number, Data.number "9007199254740993.5" = .number number → ∃ text, Json.literal? text = some number) ∧
      (verdict? .integer (.number "9007199254740993.5") =
          some (coerceScalar .typed .integer (.number "9007199254740993.5")).isOk ↔
        ScalarKind.integer.HasFaithfulRule (.number "9007199254740993.5")) := by
  have spelled (number : String) (same : Data.number "9007199254740993.5" = .number number) :
      ∃ text, Json.literal? text = some number := by
    cases same
    exact ⟨"9007199254740993.5", by decide +kernel⟩
  exact ⟨spelled, verdict?_eq_isOk_coerceScalar_iff .integer spelled⟩

/-- Rules are looser than coercions, stricter, or without a verdict: of a blank that the pattern does not
know, of one that only the pattern knows, of a half, of a scale beyond 64 bits and of a great integer. -/
theorem verdict?_ne_isOk_coerceScalar :
    (verdict? .uri (.text "a\u0085b") = some true ∧
      (coerceScalar .typed .uri (.text "a\u0085b")).isOk = false) ∧
    (verdict? .uri (.text "a\ufeffb") = some false ∧
      (coerceScalar .typed .uri (.text "a\ufeffb")).isOk = true) ∧
    (verdict? .integer (.number "9007199254740993.5") = some true ∧
      (coerceScalar .typed .integer (.number "9007199254740993.5")).isOk = false) ∧
    (verdict? .decimal (.number "1e+9223372036854775809") = some true ∧
      (coerceScalar .typed .decimal (.number "1e+9223372036854775809")).isOk = false) ∧
    verdict? .integer (.number "1e+400") = none ∧
      (coerceScalar .typed .integer (.number "1e+400")).isOk = true := by
  decide +kernel

end ScalarRule

end ClassSchema
