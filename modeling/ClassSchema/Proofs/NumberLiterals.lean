import ClassSchema.Proofs.Digits

/-! # Number literals

A literal has a sign, whole digits, perhaps a fraction and perhaps an exponent. Its parts give it an exact
value, digits with a scale; here each reader of literals is compared with that value. Decimals are read
where exponent and scale fit, integers where the value is whole, doubles from the same digits and scale.
-/

namespace ClassSchema

/-- The exponent of a literal. -/
structure ExponentPart where
  mark : Char
  /-- Whether the exponent has a minus sign. -/
  below : Bool
  digits : List Char
  isMark : Decimal.isExponentMark mark = true
  nonempty : digits ≠ []
  areDigits : digits.all Char.isDigit = true

namespace ExponentPart

def chars (part : ExponentPart) : List Char :=
  part.mark :: (if part.below then '-' else '+') :: part.digits

def value (part : ExponentPart) : Int :=
  if part.below then -(decimalValue part.digits : Int) else decimalValue part.digits

end ExponentPart

/-- The parts of a number literal. -/
structure NumberLiteral where
  negative : Bool
  whole : List Char
  /-- The digits behind the point; there is no point if there are none. -/
  fraction : List Char
  exponent? : Option ExponentPart
  /-- The whole part has no zeros in front. -/
  wholeShape : whole = ['0'] ∨ whole ≠ [] ∧ whole.head? ≠ some '0'
  wholeDigits : whole.all Char.isDigit = true
  fractionDigits : fraction.all Char.isDigit = true

namespace NumberLiteral

variable (literal : NumberLiteral)

def signChars : List Char :=
  if literal.negative then ['-'] else []

def pointChars : List Char :=
  if literal.fraction.isEmpty then [] else '.' :: literal.fraction

def exponentChars : List Char :=
  match literal.exponent? with
  | none => []
  | some part => part.chars

/-- The literal as it is written. -/
def chars : List Char :=
  literal.signChars ++ (literal.whole ++ (literal.pointChars ++ literal.exponentChars))

def text : String :=
  String.ofList literal.chars

/-- The number that the digits spell without the point. -/
def digits : Nat :=
  decimalValue (literal.whole ++ literal.fraction)

/-- The digits with the sign. -/
def signed : Int :=
  if literal.negative then -(literal.digits : Int) else literal.digits

def exponent : Int :=
  match literal.exponent? with
  | none => 0
  | some part => part.value

/-- The places of the point to the left: the value is the digits over this power of ten. -/
def scale : Int :=
  (literal.fraction.length : Int) - literal.exponent

/-- Whether the exponent has 128 bits and the scale 64. -/
def HasScale : Prop :=
  -2 ^ 127 ≤ literal.exponent ∧ literal.exponent < 2 ^ 127 ∧ isWord literal.scale = true

instance : Decidable literal.HasScale :=
  inferInstanceAs (Decidable (_ ∧ _ ∧ _))

/-- Whether the literal has neither point nor exponent. -/
def IsPlain : Prop :=
  literal.fraction = [] ∧ literal.exponent? = none

/-- Whether the exact value has no fraction. -/
def IsIntegral : Prop :=
  10 ^ literal.scale.toNat ∣ literal.digits

theorem whole_ne_nil : literal.whole ≠ [] := by
  rcases literal.wholeShape with zero | nonempty
  · simp [zero]
  · exact nonempty.1

theorem ne_of_isDigit {c other : Char} (digit : c.isDigit = true) (noDigit : other.isDigit = false) :
    c ≠ other := by
  rintro rfl
  rw [digit] at noDigit
  cases noDigit

theorem notMark_of_isDigit {c : Char} (digit : c.isDigit = true) : Decimal.isExponentMark c = false := by
  simp [Decimal.isExponentMark, ne_of_isDigit digit]

theorem isLiteralChar_of_isDigit {c : Char} (digit : c.isDigit = true) :
    Decimal.isLiteralChar c = true := by
  simp [Decimal.isLiteralChar, digit]

/-- The mantissa has no exponent mark. -/
theorem notMark_of_mem_mantissa {c : Char}
    (member : c ∈ literal.signChars ++ (literal.whole ++ literal.pointChars)) :
    Decimal.isExponentMark c = false := by
  simp only [List.mem_append] at member
  rcases member with sign | whole | point
  · unfold signChars at sign
    split at sign
    · obtain rfl := List.mem_singleton.mp sign
      rfl
    · cases sign
  · exact notMark_of_isDigit (List.all_eq_true.mp literal.wholeDigits c whole)
  · unfold pointChars at point
    split at point
    · cases point
    · rcases List.mem_cons.mp point with rfl | later
      · rfl
      · exact notMark_of_isDigit (List.all_eq_true.mp literal.fractionDigits c later)

theorem isLiteralChar_of_mem {c : Char} (member : c ∈ literal.chars) :
    Decimal.isLiteralChar c = true := by
  simp only [chars, List.mem_append] at member
  rcases member with sign | whole | point | exponent
  · unfold signChars at sign
    split at sign
    · obtain rfl := List.mem_singleton.mp sign
      rfl
    · cases sign
  · exact isLiteralChar_of_isDigit (List.all_eq_true.mp literal.wholeDigits c whole)
  · unfold pointChars at point
    split at point
    · cases point
    · rcases List.mem_cons.mp point with rfl | later
      · rfl
      · exact isLiteralChar_of_isDigit (List.all_eq_true.mp literal.fractionDigits c later)
  · unfold exponentChars at exponent
    split at exponent
    · cases exponent
    · rename_i part _
      simp only [ExponentPart.chars, List.mem_cons] at exponent
      rcases exponent with rfl | rfl | later
      · have mark := part.isMark
        simp only [Decimal.isExponentMark, Bool.or_eq_true] at mark
        simp only [Decimal.isLiteralChar, Bool.or_eq_true]
        exact mark.elim (fun small => .inl (.inr small)) .inr
      · cases part.below <;> rfl
      · exact isLiteralChar_of_isDigit (List.all_eq_true.mp part.areDigits c later)

theorem notBlank_of_isLiteralChar {c : Char} (allowed : Decimal.isLiteralChar c = true) :
    Text.isBlank c = false := by
  have range : 0x2b ≤ c.toNat ∧ c.toNat ≤ 0x65 := by
    simp only [Decimal.isLiteralChar, Bool.or_eq_true, beq_iff_eq] at allowed
    rcases allowed with ((((digit | rfl) | rfl) | rfl) | rfl) | rfl
    · simp only [Char.isDigit, Bool.and_eq_true, decide_eq_true_eq, ge_iff_le] at digit
      have lower : 48 ≤ c.toNat := digit.1
      have upper : c.toNat ≤ 57 := digit.2
      omega
    all_goals decide
  simp only [Text.isBlank, Bool.or_eq_false_iff, Bool.and_eq_false_iff, decide_eq_false_iff_not,
    beq_eq_false_iff_ne]
  omega

end NumberLiteral

/-- Where no element satisfies the test, none is stripped. -/
theorem stripEnds_of_none {p : Char → Bool} {cs : List Char} (none : ∀ c ∈ cs, p c = false) :
    Text.stripEnds p cs = cs := by
  have keep (part : List Char) (within : ∀ c ∈ part, c ∈ cs) : part.dropWhile p = part := by
    cases part with
    | nil => rfl
    | cons c rest =>
      rw [List.dropWhile_cons, none c (within c List.mem_cons_self)]
      rfl
  rw [Text.stripEnds, keep cs fun _ => id, keep cs.reverse fun _ => List.mem_reverse.mp, List.reverse_reverse]

/-- An exponent is read exactly if it has 128 bits. -/
theorem ExponentPart.exponentNumeral_eq (part : ExponentPart) :
    exponentNumeral ((if part.below then '-' else '+') :: part.digits) =
      if -2 ^ 127 ≤ part.value ∧ part.value < 2 ^ 127 then .ok part.value
      else .error (if part.below then .tooSmall else .tooLarge) := by
  obtain ⟨first, rest, split⟩ := List.exists_cons_of_ne_nil part.nonempty
  have read (bound : Nat) (overflow : NumeralError) := boundedDigits_of_digits part.areDigits
    (Nat.zero_le bound) overflow
  have value : Nat.ofDigitChars 10 part.digits 0 = decimalValue part.digits := rfl
  rw [split] at read value
  unfold ExponentPart.value
  rw [split]
  cases part.below with
  | true =>
    simp only [if_true, exponentNumeral, read, value]
    have bounds : decimalValue (first :: rest) ≤ Nat.pow 2 127 ↔
        -2 ^ 127 ≤ -(decimalValue (first :: rest) : Int) ∧
          -(decimalValue (first :: rest) : Int) < 2 ^ 127 := by
      rw [show Nat.pow 2 127 = 2 ^ 127 from rfl]
      omega
    simp only [bounds]
    split <;> rfl
  | false =>
    simp only [Bool.false_eq_true, if_false, exponentNumeral, read, value]
    have bounds : decimalValue (first :: rest) ≤ Nat.pow 2 127 - 1 ↔
        -2 ^ 127 ≤ (decimalValue (first :: rest) : Int) ∧
          (decimalValue (first :: rest) : Int) < 2 ^ 127 := by
      rw [show Nat.pow 2 127 = 2 ^ 127 from rfl]
      omega
    simp only [bounds]
    split <;> rfl

namespace NumberLiteral

variable (literal : NumberLiteral)

/-- The literal up to its exponent. -/
def mantissaChars : List Char :=
  literal.signChars ++ (literal.whole ++ literal.pointChars)

theorem chars_eq : literal.chars = literal.mantissaChars ++ literal.exponentChars := by
  simp only [chars, mantissaChars, List.append_assoc]

private theorem notMark {c : Char} (member : c ∈ literal.mantissaChars) :
    (!Decimal.isExponentMark c) = true := by
  rw [literal.notMark_of_mem_mantissa member]
  rfl

theorem takeWhile_chars :
    literal.chars.takeWhile (fun c => !Decimal.isExponentMark c) = literal.mantissaChars := by
  rw [chars_eq, List.takeWhile_append_of_pos fun c member => literal.notMark member]
  cases part : literal.exponent? with
  | none => simp [exponentChars, part]
  | some part' => simp [exponentChars, part, ExponentPart.chars, part'.isMark]

theorem dropWhile_chars :
    literal.chars.dropWhile (fun c => !Decimal.isExponentMark c) = literal.exponentChars := by
  rw [chars_eq, List.dropWhile_append_of_pos fun c member => literal.notMark member]
  cases part : literal.exponent? with
  | none => simp [exponentChars, part]
  | some part' => simp [exponentChars, part, ExponentPart.chars, part'.isMark]

/-- The exponent of a literal is read exactly if it has 128 bits. -/
theorem literalExponent_chars :
    if -2 ^ 127 ≤ literal.exponent ∧ literal.exponent < 2 ^ 127 then
      Decimal.literalExponent literal.chars = .ok literal.exponent
    else ∃ error, Decimal.literalExponent literal.chars = .error error := by
  unfold Decimal.literalExponent
  rw [dropWhile_chars]
  cases part : literal.exponent? with
  | none => simp [exponentChars, exponent, part]
  | some part' =>
    simp only [exponentChars, exponent, part, ExponentPart.chars, part'.exponentNumeral_eq]
    split
    · rfl
    · exact ⟨_, rfl⟩

private theorem notPoint_of_mem {c : Char} (member : c ∈ literal.signChars ++ literal.whole) :
    (decide (c ≠ '.')) = true := by
  rcases List.mem_append.mp member with sign | whole
  · unfold signChars at sign
    split at sign
    · obtain rfl := List.mem_singleton.mp sign
      rfl
    · cases sign
  · have digit := List.all_eq_true.mp literal.wholeDigits c whole
    exact decide_eq_true (ne_of_isDigit digit rfl)

theorem splitPoint_mantissa :
    Decimal.splitPoint literal.mantissaChars =
      (literal.signChars ++ (literal.whole ++ literal.fraction), literal.fraction.length) := by
  have split : literal.mantissaChars = (literal.signChars ++ literal.whole) ++ literal.pointChars := by
    simp only [mantissaChars, List.append_assoc]
  unfold Decimal.splitPoint
  rw [split, List.takeWhile_append_of_pos fun c member => literal.notPoint_of_mem member,
    List.dropWhile_append_of_pos fun c member => literal.notPoint_of_mem member]
  cases fraction : literal.fraction <;> simp [pointChars, fraction]

theorem digitChars_ne_nil : literal.whole ++ literal.fraction ≠ [] :=
  List.append_ne_nil_of_left_ne_nil literal.whole_ne_nil _

theorem digitChars_areDigits : (literal.whole ++ literal.fraction).all Char.isDigit = true := by
  rw [List.all_append, literal.wholeDigits, literal.fractionDigits]
  rfl

/-- Behind a sign, the digits decide what a numeral is. -/
theorem signedNumeral_of_digit {first : Char} (digit : first.isDigit = true) (rest : List Char)
    (negative : Bool) :
    signedNumeral ((if negative then ['-'] else []) ++ first :: rest) =
      (unsignedNumeral (first :: rest)).map fun value : Nat =>
        if negative then -(value : Int) else value := by
  cases negative with
  | true =>
    change signedNumeral ('-' :: first :: rest) = _
    rw [signedNumeral]
    · cases unsignedNumeral (first :: rest) <;> rfl
    · rintro other same
      cases same
      cases digit
  | false =>
    change signedNumeral (first :: rest) = _
    rw [signedNumeral]
    · rfl
    all_goals
      rintro other same
      cases same
      cases digit

/-- Digits with a sign are a numeral. -/
theorem signedNumeral_of_digits {digits : List Char} (nonempty : digits ≠ [])
    (areDigits : digits.all Char.isDigit = true) (negative : Bool) :
    signedNumeral ((if negative then ['-'] else []) ++ digits) =
      .ok (if negative then -(decimalValue digits : Int) else decimalValue digits) := by
  have read := unsignedNumeral_of_digits nonempty areDigits
  obtain ⟨first, rest, rfl⟩ := List.exists_cons_of_ne_nil nonempty
  have digit : first.isDigit = true := List.all_eq_true.mp areDigits first List.mem_cons_self
  rw [signedNumeral_of_digit digit, read]
  rfl

/-- A literal is read as its exact value where exponent and scale fit, and else not as a decimal. -/
theorem parse_text :
    if literal.HasScale then Decimal.parse literal.text = .ok ⟨literal.signed, literal.scale⟩
    else ∃ error, Decimal.parse literal.text = .error error := by
  have stripped : Text.stripEnds Text.isBlank literal.chars = literal.chars :=
    stripEnds_of_none fun c member => notBlank_of_isLiteralChar (literal.isLiteralChar_of_mem member)
  have nonempty : literal.chars.isEmpty = false := by simp [chars, literal.whole_ne_nil]
  have allowed : literal.chars.all Decimal.isLiteralChar = true :=
    List.all_eq_true.mpr fun c member => literal.isLiteralChar_of_mem member
  have mantissa : literal.mantissaChars.isEmpty = false := by simp [mantissaChars, literal.whole_ne_nil]
  have value := signedNumeral_of_digits literal.digitChars_ne_nil literal.digitChars_areDigits literal.negative
  have exponent := literal.literalExponent_chars
  simp only [Decimal.parse, text, String.toList_ofList, stripped, nonempty, allowed, Bool.not_true,
    Bool.false_eq_true, if_false, Decimal.ofLiteral, takeWhile_chars, mantissa, splitPoint_mantissa, bind,
    Except.bind, signChars, value]
  by_cases fits : -2 ^ 127 ≤ literal.exponent ∧ literal.exponent < 2 ^ 127
  · rw [if_pos fits] at exponent
    have passed : (Except.ok literal.exponent).mapError DecimalError.numeral = .ok literal.exponent := rfl
    simp only [exponent, passed, HasScale, scale]
    by_cases word : isWord (literal.fraction.length - literal.exponent) = true
    · rw [if_pos ⟨fits.1, fits.2, word⟩, word]
      rfl
    · rw [if_neg fun has => word has.2.2, Bool.eq_false_iff.mpr word]
      exact ⟨_, rfl⟩
  · rw [if_neg fits] at exponent
    obtain ⟨error, failed⟩ := exponent
    rw [if_neg fun has => fits ⟨has.1, has.2.1⟩, failed]
    exact ⟨_, rfl⟩

theorem exists_whole_eq_cons : ∃ first rest, literal.whole = first :: rest ∧ first.isDigit = true := by
  obtain ⟨first, rest, split⟩ := List.exists_cons_of_ne_nil literal.whole_ne_nil
  exact ⟨first, rest, split,
    List.all_eq_true.mp literal.wholeDigits first (split ▸ List.mem_cons_self)⟩

/-- A literal starts with a minus sign or with a digit. -/
theorem exists_chars_eq_cons :
    ∃ first rest, literal.chars = first :: rest ∧ (first = '-' ∨ first.isDigit = true) := by
  obtain ⟨first, rest, split, digit⟩ := literal.exists_whole_eq_cons
  rw [chars, signChars, split]
  split
  · exact ⟨_, _, rfl, .inl rfl⟩
  · exact ⟨_, _, rfl, .inr digit⟩

theorem pointChars_eq_nil_of_plain (plain : literal.IsPlain) :
    literal.pointChars = [] ∧ literal.exponentChars = [] := by
  simp [pointChars, exponentChars, plain.1, plain.2]

/-- A literal without point and exponent is a numeral. -/
theorem signedNumeral_of_plain (plain : literal.IsPlain) :
    signedNumeral literal.chars = .ok literal.signed := by
  have read := signedNumeral_of_digits literal.whole_ne_nil literal.wholeDigits literal.negative
  obtain ⟨point, exponent⟩ := literal.pointChars_eq_nil_of_plain plain
  simp only [chars, point, exponent, List.append_nil, signed, digits, plain.1]
  exact read

/-- A literal with a point or an exponent has a character of no numeral. -/
theorem exists_strange_of_not_plain (notPlain : ¬ literal.IsPlain) :
    ∃ c ∈ literal.whole ++ (literal.pointChars ++ literal.exponentChars), (c.isDigit || c == '_') = false := by
  cases fraction : literal.fraction with
  | cons first rest => exact ⟨'.', by simp [pointChars, fraction], by decide⟩
  | nil =>
    cases part : literal.exponent? with
    | none => exact absurd ⟨fraction, part⟩ notPlain
    | some part' =>
      refine ⟨part'.mark, by simp [exponentChars, part, ExponentPart.chars], ?_⟩
      have mark := part'.isMark
      simp only [Decimal.isExponentMark, Bool.or_eq_true, beq_iff_eq] at mark
      rcases mark with same | same <;> rw [same] <;> decide

theorem signedNumeral_of_not_plain (notPlain : ¬ literal.IsPlain) :
    ∃ error, signedNumeral literal.chars = .error error := by
  obtain ⟨c, member, strange⟩ := literal.exists_strange_of_not_plain notPlain
  obtain ⟨error, failed⟩ := unsignedNumeral_of_strange member strange
  obtain ⟨first, rest, split, digit⟩ := literal.exists_whole_eq_cons
  rw [split, List.cons_append] at failed
  rw [chars, split, List.cons_append, signChars, signedNumeral_of_digit digit, failed]
  exact ⟨error, rfl⟩

theorem natAbs_signed : literal.signed.natAbs = literal.digits := by
  unfold signed
  split <;> omega

/-- A literal is read as an integer exactly if it is a plain numeral, or its scale fits and its value has
no fraction. -/
theorem isOk_parseInteger_text_iff :
    (parseInteger literal.text).isOk = true ↔
      literal.IsPlain ∨ literal.HasScale ∧ literal.IsIntegral := by
  unfold parseInteger
  rw [text, String.toList_ofList]
  by_cases plain : literal.IsPlain
  · rw [literal.signedNumeral_of_plain plain]
    exact iff_of_true rfl (.inl plain)
  · obtain ⟨_, failed⟩ := literal.signedNumeral_of_not_plain plain
    have read := literal.parse_text
    rw [text] at read
    simp only [failed, plain, false_or]
    by_cases scaled : literal.HasScale
    · rw [if_pos scaled] at read
      have whole := Decimal.isSome_toInteger?_iff ⟨literal.signed, literal.scale⟩
      rw [natAbs_signed] at whole
      simp only [read, scaled, true_and, IsIntegral, ← whole]
      cases Decimal.toInteger? ⟨literal.signed, literal.scale⟩ <;> simp [Except.isOk, Except.toBool]
    · rw [if_neg scaled] at read
      obtain ⟨_, unread⟩ := read
      simp [unread, scaled, Except.isOk, Except.toBool]

/-- A run of digits ends before what is no digit. -/
theorem spanDigits_append {digits rest : List Char} (areDigits : digits.all Char.isDigit = true)
    (ends : ∀ c ∈ rest.head?, c.isDigit = false) :
    (digits ++ rest).takeWhile Char.isDigit = digits ∧ (digits ++ rest).dropWhile Char.isDigit = rest := by
  have each := List.all_eq_true.mp areDigits
  rw [List.takeWhile_append_of_pos each, List.dropWhile_append_of_pos each]
  cases rest with
  | nil => simp
  | cons c rest =>
    have noDigit := ends c rfl
    simp [noDigit]

/-- An exponent does not start with a digit or a point. -/
theorem exponentChars_head (c : Char) (first : c ∈ literal.exponentChars.head?) :
    c.isDigit = false ∧ c ≠ '.' := by
  cases part : literal.exponent? with
  | none => simp [exponentChars, part] at first
  | some part' =>
    simp only [exponentChars, part, ExponentPart.chars, List.head?_cons, Option.mem_some_iff] at first
    subst first
    have mark := part'.isMark
    simp only [Decimal.isExponentMark, Bool.or_eq_true, beq_iff_eq] at mark
    rcases mark with same | same <;> rw [same] <;> decide

theorem splitSign_chars :
    splitSign literal.chars =
      (literal.negative, literal.whole ++ (literal.pointChars ++ literal.exponentChars)) := by
  obtain ⟨first, rest, split, digit⟩ := literal.exists_whole_eq_cons
  cases negative : literal.negative with
  | true => simp [chars, signChars, negative, splitSign]
  | false =>
    rw [chars, signChars, negative, split]
    change splitSign (first :: (rest ++ _)) = _
    rw [splitSign]
    · rfl
    all_goals
      rintro other same
      cases same
      cases digit

theorem splitMantissa_chars :
    Binary64.splitMantissa (literal.whole ++ (literal.pointChars ++ literal.exponentChars)) =
      (literal.whole, literal.fraction, literal.exponentChars) := by
  have exponentEnds (c : Char) (first : c ∈ literal.exponentChars.head?) : c.isDigit = false :=
    (literal.exponentChars_head c first).1
  unfold Binary64.splitMantissa
  cases fraction : literal.fraction with
  | nil =>
    have point : literal.pointChars = [] := by simp [pointChars, fraction]
    obtain ⟨taken, left⟩ := spanDigits_append literal.wholeDigits exponentEnds
    rw [point, List.nil_append, taken, left]
    split
    · rename_i rest same
      exact absurd rfl (literal.exponentChars_head '.' (by rw [same]; rfl)).2
    · rfl
  | cons c others =>
    have point : literal.pointChars = '.' :: literal.fraction := by simp [pointChars, fraction]
    have pointEnds : ∀ c ∈ ('.' :: (literal.fraction ++ literal.exponentChars)).head?, c.isDigit = false := by
      simp
    obtain ⟨taken, left⟩ := spanDigits_append literal.wholeDigits pointEnds
    obtain ⟨places, behind⟩ := spanDigits_append literal.fractionDigits exponentEnds
    rw [point, List.cons_append, taken, left]
    simp only [places, behind]
    rw [fraction]

theorem literalExponent?_chars :
    Binary64.literalExponent? literal.exponentChars = some literal.exponent := by
  cases part : literal.exponent? with
  | none => simp [exponentChars, exponent, part, Binary64.literalExponent?]
  | some part' =>
    have mark : (part'.mark == 'e' || part'.mark == 'E') = true := part'.isMark
    have signed : splitSign ((if part'.below then '-' else '+') :: part'.digits) =
        (part'.below, part'.digits) := by
      cases part'.below <;> rfl
    simp only [exponentChars, exponent, part, ExponentPart.chars, Binary64.literalExponent?, mark, if_true,
      signed, digitsInBase?_of_digits part'.nonempty part'.areDigits, ExponentPart.value]
    rfl

/-- A literal is read as the double nearest to its digits with its scale. -/
theorem ofLiteral?_text :
    Binary64.ofLiteral? literal.text =
      some (Binary64.ofDecimal literal.negative literal.digits (-literal.scale)) := by
  have read := digitsInBase?_of_digits literal.digitChars_ne_nil literal.digitChars_areDigits
  have negated : literal.exponent - (literal.fraction.length : Int) = -literal.scale := by
    rw [scale]
    omega
  simp only [Binary64.ofLiteral?, text, String.toList_ofList, splitSign_chars, splitMantissa_chars,
    literalExponent?_chars, read, negated]
  rfl

end NumberLiteral

end ClassSchema
