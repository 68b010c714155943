import ClassSchema.Proofs.NumberReadings

/-! # The notation of decimals

A decimal literal is an optional sign, digits with at most one point among them, and perhaps a mark with a
signed exponent. Reading takes the literals whose scale fits, and finds the integer that their digits spell and
the number of places. The digits on both sides of the point are put together before they are read, so one more
form is taken: where no digit stands in front of the point, the sign may stand behind it, and then it counts as
a place.
-/

namespace ClassSchema

/-- The integer that digits behind a sign spell. -/
def signedValue (sign digits : List Char) : Int :=
  if sign = ['-'] then -(decimalValue digits : Int) else decimalValue digits

@[simp] theorem signedValue_nil (digits : List Char) : signedValue [] digits = decimalValue digits := rfl

@[simp] theorem signedValue_minus (digits : List Char) : signedValue ['-'] digits = -(decimalValue digits : Int) :=
  rfl

@[simp] theorem signedValue_plus (digits : List Char) : signedValue ['+'] digits = decimalValue digits := rfl

/-- Whether characters are digits behind an optional sign, and the integer that they spell. -/
def SpellsInteger (cs : List Char) (value : Int) : Prop :=
  ∃ sign digits, IsSign sign ∧ digits ≠ [] ∧ digits.all Char.isDigit = true ∧ cs = sign ++ digits ∧
    value = signedValue sign digits

theorem IsSign.isLiteralChar {sign : List Char} (isSign : IsSign sign) {c : Char} (member : c ∈ sign) :
    Decimal.isLiteralChar c = true := by
  rcases isSign with rfl | rfl | rfl
  · cases member
  · rw [List.mem_singleton.mp member]
    rfl
  · rw [List.mem_singleton.mp member]
    rfl

theorem SpellsInteger.isLiteralChar {cs : List Char} {value : Int} (spells : SpellsInteger cs value) {c : Char}
    (member : c ∈ cs) : Decimal.isLiteralChar c = true := by
  obtain ⟨sign, digits, isSign, _, areDigits, rfl, _⟩ := spells
  rcases List.mem_append.mp member with inSign | inDigits
  · exact isSign.isLiteralChar inSign
  · exact NumberLiteral.isLiteralChar_of_isDigit (List.all_eq_true.mp areDigits c inDigits)

/-- Without underscores, what is read as a numeral is digits. -/
theorem unsignedNumeral_eq_ok_iff {cs : List Char} (plain : '_' ∉ cs) {value : Nat} :
    unsignedNumeral cs = .ok value ↔
      cs ≠ [] ∧ cs.all Char.isDigit = true ∧ value = decimalValue cs := by
  constructor
  · intro read
    have nonempty : cs ≠ [] := by
      rintro rfl
      cases read
    have areDigits : cs.all Char.isDigit = true := by
      rw [List.all_eq_true]
      intro c member
      have noUnderscore : c ≠ '_' := fun same => plain (same ▸ member)
      rw [← Bool.not_eq_false]
      intro noDigit
      obtain ⟨_, failed⟩ := unsignedNumeral_of_strange member (by simp [noDigit, noUnderscore])
      rw [failed] at read
      cases read
    rw [unsignedNumeral_of_digits nonempty areDigits] at read
    exact ⟨nonempty, areDigits, (Except.ok.inj read).symm⟩
  · rintro ⟨nonempty, areDigits, rfl⟩
    exact unsignedNumeral_of_digits nonempty areDigits

theorem signedNumeral_append {sign digits : List Char} (isSign : IsSign sign) (nonempty : digits ≠ [])
    (areDigits : digits.all Char.isDigit = true) :
    signedNumeral (sign ++ digits) = .ok (signedValue sign digits) := by
  rcases isSign with rfl | rfl | rfl
  · exact NumberLiteral.signedNumeral_of_digits nonempty areDigits false
  · exact NumberLiteral.signedNumeral_of_digits nonempty areDigits true
  · have read := unsignedNumeral_of_digits nonempty areDigits
    rw [List.singleton_append, signedNumeral, read]
    · rfl
    · rintro rest rfl
      cases areDigits

/-- Without underscores, what is read as a signed numeral is digits behind a sign. -/
theorem signedNumeral_eq_ok_iff {cs : List Char} (plain : '_' ∉ cs) {value : Int} :
    signedNumeral cs = .ok value ↔ SpellsInteger cs value := by
  constructor
  · intro read
    unfold signedNumeral at read
    split at read
    · cases read
    · simp only [map_eq_ok_iff, bind_eq_ok_iff] at read
      obtain ⟨_, ⟨number, unsigned, done⟩, rfl⟩ := read
      cases done
      obtain ⟨nonempty, areDigits, rfl⟩ :=
        (unsignedNumeral_eq_ok_iff fun member => plain (List.mem_cons_of_mem _ member)).mp unsigned
      exact ⟨['-'], _, .inr (.inl rfl), nonempty, areDigits, rfl, rfl⟩
    · cases read
    · obtain ⟨number, unsigned, rfl⟩ := map_eq_ok_iff.mp read
      obtain ⟨nonempty, areDigits, rfl⟩ :=
        (unsignedNumeral_eq_ok_iff fun member => plain (List.mem_cons_of_mem _ member)).mp unsigned
      exact ⟨['+'], _, .inr (.inr rfl), nonempty, areDigits, rfl, rfl⟩
    · obtain ⟨number, unsigned, rfl⟩ := map_eq_ok_iff.mp read
      obtain ⟨nonempty, areDigits, rfl⟩ := (unsignedNumeral_eq_ok_iff plain).mp unsigned
      exact ⟨[], _, .inl rfl, nonempty, areDigits, rfl, rfl⟩
  · rintro ⟨sign, digits, isSign, nonempty, areDigits, rfl, rfl⟩
    exact signedNumeral_append isSign nonempty areDigits

/-- What is read with a bound is digits whose number is within it. -/
theorem boundedDigits_eq_ok_iff {bound value : Nat} {overflow : NumeralError} {cs : List Char} :
    boundedDigits bound overflow 0 cs = .ok value ↔
      cs.all Char.isDigit = true ∧ value = decimalValue cs ∧ value ≤ bound := by
  have areDigits {start : Nat} (read : boundedDigits bound overflow start cs = .ok value) :
      cs.all Char.isDigit = true := by
    induction cs generalizing start with
    | nil => rfl
    | cons c rest ih =>
      rw [boundedDigits] at read
      split at read
      · cases read
      · rename_i digit
        dsimp only at read
        split at read
        · cases read
        · rw [List.all_cons, ih read, Bool.and_true]
          simpa using digit
  constructor
  · intro read
    have digits := areDigits read
    rw [boundedDigits_of_digits digits (Nat.zero_le bound)] at read
    split at read
    · cases read
      exact ⟨digits, rfl, ‹_›⟩
    · cases read
  · rintro ⟨digits, rfl, within⟩
    rw [boundedDigits_of_digits digits (Nat.zero_le bound)]
    exact if_pos within

/-- An exponent is digits behind a sign whose integer has 128 bits. -/
theorem exponentNumeral_eq_ok_iff {cs : List Char} {value : Int} :
    exponentNumeral cs = .ok value ↔ SpellsInteger cs value ∧ -2 ^ 127 ≤ value ∧ value < 2 ^ 127 := by
  have power : Nat.pow 2 127 = 170141183460469231731687303715884105728 := rfl
  constructor
  · intro read
    unfold exponentNumeral at read
    split at read
    · cases read
    · cases read
    · cases read
    · rename_i rest nonempty
      simp only [map_eq_ok_iff, bind_eq_ok_iff] at read
      obtain ⟨_, ⟨number, bounded, done⟩, rfl⟩ := read
      cases done
      obtain ⟨areDigits, rfl, within⟩ := boundedDigits_eq_ok_iff.mp bounded
      exact ⟨⟨['-'], rest, .inr (.inl rfl), nonempty, areDigits, rfl, rfl⟩, by omega, by omega⟩
    · rename_i rest nonempty
      obtain ⟨number, bounded, rfl⟩ := map_eq_ok_iff.mp read
      obtain ⟨areDigits, rfl, within⟩ := boundedDigits_eq_ok_iff.mp bounded
      rw [Int.ofNat_eq_natCast]
      exact ⟨⟨['+'], rest, .inr (.inr rfl), nonempty, areDigits, rfl, rfl⟩, by omega, by omega⟩
    · rename_i nonempty _ _ _ _
      obtain ⟨number, bounded, rfl⟩ := map_eq_ok_iff.mp read
      obtain ⟨areDigits, rfl, within⟩ := boundedDigits_eq_ok_iff.mp bounded
      rw [Int.ofNat_eq_natCast]
      exact ⟨⟨[], cs, .inl rfl, nonempty, areDigits, rfl, rfl⟩, by omega, by omega⟩
  · rintro ⟨⟨sign, digits, isSign, nonempty, areDigits, rfl, rfl⟩, above, below⟩
    obtain ⟨first, rest, rfl⟩ := List.exists_cons_of_ne_nil nonempty
    have read {bound : Nat} (overflow : NumeralError) (within : decimalValue (first :: rest) ≤ bound) :
        boundedDigits bound overflow 0 (first :: rest) = .ok (decimalValue (first :: rest)) :=
      boundedDigits_eq_ok_iff.mpr ⟨areDigits, rfl, within⟩
    rcases isSign with rfl | rfl | rfl
    · have digit : first.isDigit = true := List.all_eq_true.mp areDigits first List.mem_cons_self
      have noSign : first ≠ '-' ∧ first ≠ '+' :=
        ⟨NumberLiteral.ne_of_isDigit digit rfl, NumberLiteral.ne_of_isDigit digit rfl⟩
      rw [signedValue_nil] at above below ⊢
      rw [List.nil_append, exponentNumeral, read _ (by omega)]
      · rfl
      all_goals simp [noSign]
    · rw [signedValue_minus] at above below ⊢
      rw [List.singleton_append, exponentNumeral, read _ (by omega)]
      · rfl
      · exact List.cons_ne_nil first rest
    · rw [signedValue_plus] at above below ⊢
      rw [List.singleton_append, exponentNumeral, read _ (by omega)]
      · rfl
      · exact List.cons_ne_nil first rest

namespace Decimal

/-- Whether characters are an exponent with its mark, or nothing, which stands for zero. -/
def SpellsExponent (cs : List Char) (exponent : Int) : Prop :=
  cs = [] ∧ exponent = 0 ∨
    ∃ mark rest, cs = mark :: rest ∧ isExponentMark mark = true ∧ SpellsInteger rest exponent

/-- Whether characters are a decimal literal: the integer that its digits spell, how many of them stand behind
the point, and its exponent. -/
def IsLiteral (cs : List Char) (value : Int) (places : Nat) (exponent : Int) : Prop :=
  ∃ (mantissa : Mantissa) (tail : List Char), cs = mantissa.chars ++ tail ∧
    value = signedValue mantissa.sign (mantissa.whole ++ mantissa.fraction) ∧
    places = mantissa.fraction.length ∧ SpellsExponent tail exponent

/-- Whether characters are a point, a sign and digits, perhaps with an exponent: the integer that the digits
spell behind the sign, the places with the sign among them, and the exponent. -/
def IsMissigned (cs : List Char) (value : Int) (places : Nat) (exponent : Int) : Prop :=
  ∃ (sign : Char) (digits tail : List Char), (sign = '-' ∨ sign = '+') ∧ digits ≠ [] ∧
    digits.all Char.isDigit = true ∧ cs = '.' :: sign :: digits ++ tail ∧
    value = signedValue [sign] digits ∧ places = digits.length + 1 ∧ SpellsExponent tail exponent

theorem SpellsExponent.isTail {cs : List Char} {exponent : Int} (spells : SpellsExponent cs exponent) :
    IsTail cs := by
  rcases spells with ⟨none, _⟩ | ⟨mark, rest, split, isMark, _⟩
  · exact .inl none
  · exact .inr ⟨mark, rest, split, isMark⟩

theorem SpellsExponent.isLiteralChar {cs : List Char} {exponent : Int} (spells : SpellsExponent cs exponent)
    {c : Char} (member : c ∈ cs) : isLiteralChar c = true := by
  rcases spells with ⟨rfl, _⟩ | ⟨mark, rest, rfl, isMark, integer⟩
  · cases member
  · rcases List.mem_cons.mp member with rfl | later
    · simp only [isExponentMark, Bool.or_eq_true] at isMark
      simp only [Decimal.isLiteralChar, Bool.or_eq_true]
      exact isMark.elim (fun small => .inl (.inr small)) .inr
    · exact integer.isLiteralChar later

/-- An exponent is read if its integer has 128 bits. -/
theorem literalExponent_eq_ok_iff {cs : List Char} {exponent : Int} :
    literalExponent cs = .ok exponent ↔
      SpellsExponent (cs.dropWhile fun c => !isExponentMark c) exponent ∧
        -2 ^ 127 ≤ exponent ∧ exponent < 2 ^ 127 := by
  unfold literalExponent SpellsExponent
  split
  · rename_i none
    rw [none]
    constructor
    · intro read
      cases read
      exact ⟨.inl ⟨rfl, rfl⟩, by decide, by decide⟩
    · rintro ⟨⟨_, rfl⟩ | ⟨_, _, split, _⟩, _⟩
      · rfl
      · cases split
  · rename_i mark rest split
    have isMark : isExponentMark mark = true := by
      have head := List.head?_dropWhile_not (fun c => !isExponentMark c) cs
      rw [split] at head
      simpa using head
    rw [split, exponentNumeral_eq_ok_iff]
    apply and_congr_left'
    constructor
    · intro integer
      exact .inr ⟨mark, rest, rfl, isMark, integer⟩
    · rintro (⟨none, _⟩ | ⟨_, _, same, _, integer⟩)
      · cases none
      · cases same
        exact integer

/-- What reading finds in characters: a front without mark that is a numeral once its point is taken out, and
an exponent. -/
structure Splits (cs front tail : List Char) (value : Int) (places : Nat) (exponent : Int) : Prop where
  split : cs = front ++ tail
  allowed : ∀ c ∈ front, isLiteralChar c = true
  noMark : ∀ c ∈ front, isExponentMark c = false
  numeral : signedNumeral (splitPoint front).1 = .ok value
  counted : (splitPoint front).2 = places
  exponent : SpellsExponent tail exponent

theorem splitPoint_of_point (lead : List Char) (noPoint : ∀ c ∈ lead, c ≠ '.') (fraction : List Char) :
    splitPoint (lead ++ '.' :: fraction) = (lead ++ fraction, fraction.length) := by
  have passed (c : Char) (member : c ∈ lead) : decide (c ≠ '.') = true := decide_eq_true (noPoint c member)
  unfold splitPoint
  rw [List.takeWhile_append_of_pos passed, List.dropWhile_append_of_pos passed]
  simp

/-- Characters have no point, or their first one stands somewhere. -/
theorem splitPoint_cases (front : List Char) :
    splitPoint front = (front, 0) ∨ ∃ lead fraction, front = lead ++ '.' :: fraction ∧
      splitPoint front = (lead ++ fraction, fraction.length) := by
  by_cases point : '.' ∈ front
  · obtain ⟨lead, fraction, rfl, first⟩ := List.eq_append_cons_of_mem point
    right
    refine ⟨lead, fraction, rfl, splitPoint_of_point lead ?_ fraction⟩
    rintro c member rfl
    exact first member
  · left
    have all : ∀ c ∈ front, decide (c ≠ '.') = true := by
      intro c member
      exact decide_eq_true fun same => point (same ▸ member)
    unfold splitPoint
    rw [List.takeWhile_eq_self_iff.mpr all, List.dropWhile_eq_nil_iff.mpr all]
    simp

variable {cs : List Char} {value : Int} {places : Nat} {exponent : Int}

theorem IsLiteral.exists_splits (isLiteral : IsLiteral cs value places exponent) :
    ∃ front tail, Splits cs front tail value places exponent := by
  obtain ⟨mantissa, tail, split, rfl, rfl, isExponent⟩ := isLiteral
  have point := mantissa.splitPoint_chars
  refine ⟨mantissa.chars, tail, split, ?_, fun _ => mantissa.notMark, ?_, by rw [point], isExponent⟩
  · intro c member
    rcases mantissa.of_mem member with rfl | rfl | rfl | digit
    · rfl
    · rfl
    · rfl
    · exact NumberLiteral.isLiteralChar_of_isDigit digit
  · rw [point]
    exact signedNumeral_append mantissa.isSign mantissa.nonempty mantissa.areDigits

theorem IsMissigned.exists_splits (isMissigned : IsMissigned cs value places exponent) :
    ∃ front tail, Splits cs front tail value places exponent := by
  obtain ⟨sign, digits, tail, isSign, nonempty, areDigits, split, rfl, rfl, isExponent⟩ := isMissigned
  have point := splitPoint_of_point [] (by simp) (sign :: digits)
  rw [List.nil_append] at point
  have each (c : Char) (member : c ∈ '.' :: sign :: digits) :
      isLiteralChar c = true ∧ isExponentMark c = false := by
    simp only [List.mem_cons] at member
    rcases member with rfl | rfl | inDigits
    · decide
    · rcases isSign with rfl | rfl <;> decide
    · have digit := List.all_eq_true.mp areDigits c inDigits
      exact ⟨NumberLiteral.isLiteralChar_of_isDigit digit, NumberLiteral.notMark_of_isDigit digit⟩
  refine ⟨'.' :: sign :: digits, tail, split, fun c member => (each c member).1,
    fun c member => (each c member).2, ?_, by rw [point]; rfl, isExponent⟩
  rw [point]
  have signed : IsSign [sign] := by
    rcases isSign with rfl | rfl
    · exact .inr (.inl rfl)
    · exact .inr (.inr rfl)
  exact signedNumeral_append signed nonempty areDigits

/-- A sign stands in front of the digits on both sides of a point, or behind a point that nothing precedes. -/
theorem sign_cases {sign digits lead fraction : List Char} (isSign : IsSign sign)
    (glued : lead ++ fraction = sign ++ digits) :
    (∃ whole, lead = sign ++ whole ∧ digits = whole ++ fraction) ∨
      ∃ c, (c = '-' ∨ c = '+') ∧ sign = [c] ∧ lead = [] ∧ fraction = c :: digits := by
  rcases List.append_eq_append_iff.mp glued with ⟨part, split, rfl⟩ | ⟨whole, rfl, rfl⟩
  · cases lead with
    | nil =>
      rw [List.nil_append] at split
      subst split
      rcases isSign with rfl | rfl | rfl
      · exact .inl ⟨[], rfl, rfl⟩
      · exact .inr ⟨'-', .inl rfl, rfl, rfl, rfl⟩
      · exact .inr ⟨'+', .inr rfl, rfl, rfl, rfl⟩
    | cons first rest =>
      have short : sign.length ≤ 1 := by rcases isSign with rfl | rfl | rfl <;> decide
      rw [split, List.length_append, List.length_cons] at short
      obtain rfl : part = [] := List.eq_nil_of_length_eq_zero (by omega)
      exact .inl ⟨[], by rw [split, List.append_nil, List.append_nil], rfl⟩
  · exact .inl ⟨whole, rfl, rfl⟩

/-- A numeral whose point was taken out is a literal, unless its sign stands behind the point. -/
theorem Splits.isLiteral_or_isMissigned {front tail : List Char}
    (splits : Splits cs front tail value places exponent) :
    IsLiteral cs value places exponent ∨ IsMissigned cs value places exponent := by
  obtain ⟨rfl, allowed, _, numeral, rfl, isExponent⟩ := splits
  have plain : '_' ∉ front := fun member => absurd (allowed '_' member) (by decide)
  rcases splitPoint_cases front with whole | ⟨lead, fraction, rfl, parts⟩
  · rw [whole] at numeral ⊢
    obtain ⟨sign, digits, isSign, nonempty, areDigits, rfl, rfl⟩ := (signedNumeral_eq_ok_iff plain).mp numeral
    let mantissa : Mantissa :=
      { sign, whole := digits, point := [], fraction := [], isSign, isPoint := .inl ⟨rfl, rfl⟩
        wholeDigits := areDigits, fractionDigits := rfl, nonempty := by rwa [List.append_nil] }
    left
    refine ⟨mantissa, tail, ?_, ?_, rfl, isExponent⟩
    · simp only [Mantissa.chars, mantissa, List.append_nil]
    · simp only [mantissa, List.append_nil]
  · have plainDigits : '_' ∉ lead ++ fraction := by
      intro member
      apply plain
      rcases List.mem_append.mp member with inLead | inFraction
      · exact List.mem_append_left _ inLead
      · exact List.mem_append_right _ (List.mem_cons_of_mem _ inFraction)
    rw [parts] at numeral ⊢
    obtain ⟨sign, digits, isSign, nonempty, areDigits, glued, rfl⟩ :=
      (signedNumeral_eq_ok_iff plainDigits).mp numeral
    rcases sign_cases isSign glued with ⟨whole, rfl, rfl⟩ | ⟨c, isMinusOrPlus, rfl, rfl, rfl⟩
    · rw [List.all_append, Bool.and_eq_true] at areDigits
      let mantissa : Mantissa :=
        { sign, whole, point := '.' :: fraction, fraction, isSign, isPoint := .inr rfl
          wholeDigits := areDigits.1, fractionDigits := areDigits.2, nonempty }
      left
      refine ⟨mantissa, tail, ?_, rfl, rfl, isExponent⟩
      simp only [Mantissa.chars, mantissa, List.append_assoc]
    · right
      exact ⟨c, digits, tail, isMinusOrPlus, nonempty, areDigits, rfl, rfl, rfl, isExponent⟩

theorem Splits.spans {front tail : List Char} (splits : Splits cs front tail value places exponent) :
    cs.takeWhile (fun c => !isExponentMark c) = front ∧ cs.dropWhile (fun c => !isExponentMark c) = tail := by
  rw [splits.split]
  exact span_append_tail splits.noMark splits.exponent.isTail

theorem Splits.isLiteralChar {front tail : List Char} (splits : Splits cs front tail value places exponent)
    {c : Char} (member : c ∈ cs) : isLiteralChar c = true := by
  rw [splits.split, List.mem_append] at member
  exact member.elim (splits.allowed c) splits.exponent.isLiteralChar

/-- Characters of literals are read if they split, and exponent and scale fit. -/
theorem ofLiteral_eq_ok_iff {decimal : Decimal} (allowed : ∀ c ∈ cs, isLiteralChar c = true) :
    ofLiteral cs = .ok decimal ↔ ∃ front tail places exponent,
      Splits cs front tail decimal.digits places exponent ∧ -2 ^ 127 ≤ exponent ∧ exponent < 2 ^ 127 ∧
        decimal.scale = places - exponent ∧ isWord decimal.scale = true := by
  constructor
  · intro read
    obtain ⟨exponent, found, read⟩ := bind_eq_ok_iff.mp read
    obtain ⟨spells, above, below⟩ := literalExponent_eq_ok_iff.mp (mapError_eq_ok_iff.mp found)
    dsimp only at read
    split at read
    · cases read
    · split at read
      · cases read
      · rename_i fits
        obtain ⟨value, numeral, done⟩ := bind_eq_ok_iff.mp read
        cases done
        refine ⟨cs.takeWhile fun c => !isExponentMark c, cs.dropWhile fun c => !isExponentMark c, _, exponent, ?_,
          above, below, rfl, by simpa using fits⟩
        have rejoined := List.takeWhile_append_dropWhile (p := fun c => !isExponentMark c) (l := cs)
        constructor
        · exact rejoined.symm
        · intro c member
          exact allowed c ((List.takeWhile_prefix _).mem member)
        · intro c member
          simpa using List.mem_takeWhile_imp member
        · exact mapError_eq_ok_iff.mp numeral
        · rfl
        · exact spells
  · rintro ⟨front, tail, places, exponent, splits, above, below, scaled, fits⟩
    obtain ⟨taken, dropped⟩ := splits.spans
    have found : literalExponent cs = .ok exponent :=
      literalExponent_eq_ok_iff.mpr ⟨dropped ▸ splits.exponent, above, below⟩
    have nonempty : front.isEmpty = false := by
      cases front with
      | nil => cases splits.numeral
      | cons first rest => rfl
    have counted := splits.counted
    have numeral := splits.numeral
    have passed : (Except.ok exponent).mapError DecimalError.numeral = .ok exponent := rfl
    rw [scaled] at fits
    simp only [ofLiteral, found, passed, taken, nonempty, counted, numeral, fits, bind, Except.bind, Bool.not_true,
      Bool.false_eq_true, if_false]
    rw [← scaled]
    rfl

/-- A text is read as a decimal if it spells one, blanks around it aside, and exponent and scale fit. -/
theorem parse_eq_ok_iff {text : String} {decimal : Decimal} :
    parse text = .ok decimal ↔ ∃ places exponent,
      (IsLiteral (Text.trim text).toList decimal.digits places exponent ∨
        IsMissigned (Text.trim text).toList decimal.digits places exponent) ∧
      -2 ^ 127 ≤ exponent ∧ exponent < 2 ^ 127 ∧
      decimal.scale = places - exponent ∧ isWord decimal.scale = true := by
  rw [Text.trim, String.toList_ofList]
  generalize trimmed : Text.stripEnds Text.isBlank text.toList = cs
  constructor
  · intro read
    simp only [parse, trimmed] at read
    split at read
    · cases read
    · split at read
      · cases read
      · rename_i allowed
        simp only [Bool.not_eq_true, Bool.not_eq_false', List.all_eq_true] at allowed
        obtain ⟨front, tail, places, exponent, splits, fits⟩ := (ofLiteral_eq_ok_iff allowed).mp read
        exact ⟨places, exponent, splits.isLiteral_or_isMissigned, fits⟩
  · rintro ⟨places, exponent, forms, fits⟩
    obtain ⟨front, tail, splits⟩ : ∃ front tail, Splits cs front tail decimal.digits places exponent := by
      rcases forms with isLiteral | isMissigned
      · exact isLiteral.exists_splits
      · exact isMissigned.exists_splits
    have allowed (c : Char) (member : c ∈ cs) : isLiteralChar c = true := splits.isLiteralChar member
    have read : ofLiteral cs = .ok decimal :=
      (ofLiteral_eq_ok_iff allowed).mpr ⟨front, tail, places, exponent, splits, fits⟩
    have nonempty : cs.isEmpty = false := by
      cases cs with
      | nil => cases read
      | cons first rest => rfl
    simp only [parse, trimmed, nonempty, List.all_eq_true.mpr allowed, read, Bool.not_true, Bool.false_eq_true,
      if_false]

/-- No literal has a sign behind a leading point. -/
theorem IsLiteral.not_isMissigned {other : Int} {count : Nat} {power : Int}
    (isLiteral : IsLiteral cs value places exponent) : ¬ IsMissigned cs other count power := by
  obtain ⟨mantissa, tail, rfl, _⟩ := isLiteral
  rintro ⟨c, digits, rest, isMinusOrPlus, _, _, same, _⟩
  have noDigit : c.isDigit = false := by rcases isMinusOrPlus with rfl | rfl <;> rfl
  rw [Mantissa.chars, List.append_assoc, List.append_assoc] at same
  have unsigned : mantissa.sign = [] := by
    rcases mantissa.isSign with none | minus | plus
    · exact none
    · rw [minus] at same
      cases same
    · rw [plus] at same
      cases same
  rw [unsigned, List.nil_append] at same
  cases whole : mantissa.whole with
  | cons first others =>
    have digit := List.all_eq_true.mp mantissa.wholeDigits first (by rw [whole]; exact List.mem_cons_self)
    rw [whole] at same
    obtain ⟨rfl, _⟩ := List.cons.inj same
    cases digit
  | nil =>
    rw [whole, List.nil_append] at same
    rcases mantissa.isPoint with ⟨_, noFraction⟩ | point
    · exact mantissa.nonempty (by rw [whole, noFraction]; rfl)
    · cases fraction : mantissa.fraction with
      | nil => exact mantissa.nonempty (by rw [whole, fraction]; rfl)
      | cons first others =>
        have digit := List.all_eq_true.mp mantissa.fractionDigits first
          (by rw [fraction]; exact List.mem_cons_self)
        rw [point, fraction] at same
        obtain ⟨rfl, _⟩ := List.cons.inj (List.cons.inj same).2
        rw [digit] at noDigit
        cases noDigit

/-- Every place is a character. -/
theorem places_le_length (forms : IsLiteral cs value places exponent ∨ IsMissigned cs value places exponent) :
    places ≤ cs.length := by
  rcases forms with ⟨mantissa, tail, rfl, _, rfl, _⟩ | ⟨c, digits, tail, _, _, _, rfl, _, rfl, _⟩
  · rcases mantissa.isPoint with ⟨_, fraction⟩ | point
    · simp [fraction]
    · simp only [Mantissa.chars, point, List.length_append, List.length_cons]
      omega
  · simp only [List.length_append, List.length_cons]
    omega

theorem length_trim_le (text : String) : (Text.trim text).toList.length ≤ text.length := by
  rw [Text.trim, String.toList_ofList, Text.stripEnds, List.length_reverse]
  apply Nat.le_trans (List.length_dropWhile_le _ _)
  rw [List.length_reverse]
  exact List.length_dropWhile_le _ _

/-- A text is read as a decimal exactly if it is, blanks around it aside, a literal whose exponent and scale fit,
or such digits with their sign behind a leading point; in a text of less than 2^64 characters the exponent fits
if the scale does. The decimal has the integer that the digits spell, and its scale is the number of places less
the exponent. -/
theorem parse_eq_ok_iff_isLiteral (text : String) :
    (∀ decimal, parse text = .ok decimal ↔ ∃ places exponent,
      (IsLiteral (Text.trim text).toList decimal.digits places exponent ∨
        IsMissigned (Text.trim text).toList decimal.digits places exponent) ∧
      -2 ^ 127 ≤ exponent ∧ exponent < 2 ^ 127 ∧
      decimal.scale = places - exponent ∧ isWord decimal.scale = true) ∧
    (text.length < 2 ^ 64 → ∀ decimal, parse text = .ok decimal ↔ ∃ places exponent,
      (IsLiteral (Text.trim text).toList decimal.digits places exponent ∨
        IsMissigned (Text.trim text).toList decimal.digits places exponent) ∧
      decimal.scale = places - exponent ∧ isWord decimal.scale = true) := by
  refine ⟨fun decimal => parse_eq_ok_iff, ?_⟩
  intro short decimal
  rw [parse_eq_ok_iff]
  constructor
  · rintro ⟨places, exponent, forms, _, _, fits⟩
    exact ⟨places, exponent, forms, fits⟩
  · rintro ⟨places, exponent, forms, scaled, fits⟩
    have count := places_le_length forms
    have within := length_trim_le text
    have word := fits
    rw [isWord, Bool.and_eq_true, decide_eq_true_eq, decide_eq_true_eq, wordMin, wordMax] at word
    refine ⟨places, exponent, forms, ?_, ?_, scaled, fits⟩ <;> omega

theorem parse_eq_ok_iff_isLiteral_thousands :
    " -.5e+3 ".length < 2 ^ 64 ∧ parse " -.5e+3 " = .ok ⟨-5, -2⟩ := by
  have short : " -.5e+3 ".length < 2 ^ 64 := by decide
  let mantissa : Mantissa :=
    { sign := ['-'], whole := [], point := ['.', '5'], fraction := ['5'], isSign := .inr (.inl rfl)
      isPoint := .inr rfl, wholeDigits := rfl, fractionDigits := rfl, nonempty := by decide }
  have isExponent : SpellsExponent ['e', '+', '3'] 3 :=
    .inr ⟨'e', ['+', '3'], rfl, rfl, ['+'], ['3'], .inr (.inr rfl), by decide, rfl, rfl, rfl⟩
  have isLiteral : IsLiteral (Text.trim " -.5e+3 ").toList (-5) 1 3 :=
    ⟨mantissa, ['e', '+', '3'], by decide +kernel, rfl, rfl, isExponent⟩
  exact ⟨short, ((parse_eq_ok_iff_isLiteral " -.5e+3 ").2 short ⟨-5, -2⟩).mpr
    ⟨1, 3, .inl isLiteral, rfl, by decide⟩⟩

/-- A text that is no literal is read as a number: the sign behind the point is counted as a place. -/
theorem exists_parse_of_not_isLiteral :
    parse ".-5" = .ok ⟨-5, 2⟩ ∧
      ¬ ∃ value places exponent, IsLiteral (Text.trim ".-5").toList value places exponent := by
  have isMissigned : IsMissigned (Text.trim ".-5").toList (-5) 2 0 :=
    ⟨'-', ['5'], [], .inl rfl, by decide, rfl, by decide +kernel, rfl, rfl, .inl ⟨rfl, rfl⟩⟩
  refine ⟨by decide +kernel, ?_⟩
  rintro ⟨value, places, exponent, isLiteral⟩
  exact isLiteral.not_isMissigned isMissigned

end Decimal

end ClassSchema
