import Mathlib.Algebra.Group.Int.Defs
import Mathlib.Algebra.Group.Nat.Defs
import ClassSchema.Date
import ClassSchema.Number.Decimal
import ClassSchema.Number.Literal

/-! # Runs of decimal digits

Readers of numbers go over digits in ways of their own: some allow underscores, some have a bound, some
take digits of any base. On a run of decimal digits all of them find the number that it spells. The
number of zeros at the end of a number's digits is the greatest power of ten that divides it.
-/

namespace ClassSchema

/-- The number that decimal digits spell. -/
def decimalValue (digits : List Char) : Nat :=
  Nat.ofDigitChars 10 digits 0

theorem decimalValue_append (left right : List Char) :
    decimalValue (left ++ right) = 10 ^ right.length * decimalValue left + decimalValue right := by
  rw [decimalValue, Nat.ofDigitChars_append, Nat.ofDigitChars_eq_ofDigitChars_zero]
  rfl

theorem decimalValue_replicate_zero (count : Nat) : decimalValue (List.replicate count '0') = 0 := by
  rw [decimalValue, Nat.ofDigitChars_replicate_zero, Nat.mul_zero]

theorem decimalValue_toDigits (n : Nat) : decimalValue (Nat.toDigits 10 n) = n :=
  Nat.ofDigitChars_ten_toDigits

/-- The written digits of a number are digits. -/
theorem isDigit_toDigits (n : Nat) : (Nat.toDigits 10 n).all Char.isDigit = true :=
  List.all_eq_true.mpr fun _ member => Nat.isDigit_of_mem_toDigits (by decide) (by decide) member

private theorem foldl_digitValue (digits : List Char) (value : Nat) :
    digits.foldl (fun value c => value * 10 + digitValue c) value = Nat.ofDigitChars 10 digits value := by
  simp only [Nat.ofDigitChars_eq_foldl, digitValue, Nat.mul_comm]

/-- The number of a date's digits. -/
theorem Date.number_eq (digits : List Char) : Date.number digits = decimalValue digits := by
  simp only [Date.number, decimalValue, Nat.ofDigitChars_eq_foldl, Nat.mul_comm]

theorem ne_underscore_of_isDigit {c : Char} (digit : c.isDigit = true) : c ≠ '_' := by
  rintro rfl
  revert digit
  decide

/-- What starts with no underscore is a numeral if it consists of digits and underscores. -/
theorem unsignedNumeral_cons {first : Char} (start : first ≠ '_') (rest : List Char) :
    unsignedNumeral (first :: rest) =
      if (first :: rest).all (fun c => c.isDigit || c == '_') = true then
        .ok (decimalValue ((first :: rest).filter Char.isDigit))
      else .error .invalidDigit := by
  rw [unsignedNumeral]
  · rw [foldl_digitValue, decimalValue]
  · simp
  · rintro rest same
    cases same
    exact start rfl

/-- Digits are a numeral. -/
theorem unsignedNumeral_of_digits {digits : List Char} (nonempty : digits ≠ [])
    (areDigits : digits.all Char.isDigit = true) :
    unsignedNumeral digits = .ok (decimalValue digits) := by
  obtain ⟨first, rest, rfl⟩ := List.exists_cons_of_ne_nil nonempty
  have each := List.all_eq_true.mp areDigits
  have allowed : ((first :: rest).all fun c => c.isDigit || c == '_') = true :=
    List.all_eq_true.mpr fun c member => by rw [each c member, Bool.true_or]
  rw [unsignedNumeral_cons (ne_underscore_of_isDigit (each first List.mem_cons_self)), if_pos allowed,
    List.filter_eq_self.mpr each]

/-- Characters some of which are neither digits nor underscores are no numeral. -/
theorem unsignedNumeral_of_strange {cs : List Char} {c : Char} (member : c ∈ cs)
    (strange : (c.isDigit || c == '_') = false) : ∃ error, unsignedNumeral cs = .error error := by
  unfold unsignedNumeral
  split
  · exact ⟨_, rfl⟩
  · exact ⟨_, rfl⟩
  · rw [if_neg]
    · exact ⟨_, rfl⟩
    · intro allowed
      rw [List.all_eq_true.mp allowed c member] at strange
      cases strange

/-- Digits are read with a bound exactly if the number is within it. -/
theorem boundedDigits_of_digits {digits : List Char} (areDigits : digits.all Char.isDigit = true)
    {bound value : Nat} (within : value ≤ bound) (overflow : NumeralError) :
    boundedDigits bound overflow value digits =
      if Nat.ofDigitChars 10 digits value ≤ bound then .ok (Nat.ofDigitChars 10 digits value)
      else .error overflow := by
  induction digits generalizing value with
  | nil => simp [boundedDigits, within]
  | cons c rest ih =>
    simp only [List.all_cons, Bool.and_eq_true] at areDigits
    have next : value * 10 + digitValue c = 10 * value + (c.toNat - '0'.toNat) := by
      rw [Nat.mul_comm, digitValue]
    simp only [boundedDigits, areDigits.1, Bool.not_true, Bool.false_eq_true, if_false, next,
      Nat.ofDigitChars_cons]
    by_cases still : 10 * value + (c.toNat - '0'.toNat) ≤ bound
    · rw [if_neg (Nat.not_lt.mpr still), ih areDigits.2 still]
    · -- reading on only makes the number greater
      have grown := @Nat.ofDigitChars_eq_ofDigitChars_zero rest (10 * value + (c.toNat - '0'.toNat))
      have positive : 0 < 10 ^ rest.length := Nat.pow_pos (by decide)
      have least := Nat.le_mul_of_pos_left (10 * value + (c.toNat - '0'.toNat)) positive
      rw [if_pos (Nat.lt_of_not_le still), if_neg (by omega)]

theorem hexValue?_of_isDigit {c : Char} (digit : c.isDigit = true) :
    Text.hexValue? c = some (c.toNat - '0'.toNat) ∧ c.toNat - '0'.toNat < 10 := by
  simp only [Char.isDigit, Bool.and_eq_true, decide_eq_true_eq, ge_iff_le] at digit
  have range : '0' ≤ c ∧ c ≤ '9' := digit
  refine ⟨by rw [Text.hexValue?, if_pos range], ?_⟩
  have upper : c.toNat ≤ 57 := digit.2
  change c.toNat - 48 < 10
  omega

theorem isDigit_of_hexValue? {c : Char} {value : Nat} (read : Text.hexValue? c = some value)
    (small : value < 10) : c.isDigit = true := by
  unfold Text.hexValue? at read
  split at read
  · rename_i digit
    simp only [Char.isDigit, Bool.and_eq_true, decide_eq_true_eq, ge_iff_le]
    exact digit
  · split at read
    · cases read
      omega
    · split at read
      · cases read
        omega
      · cases read

private theorem foldlM_digits {digits : List Char} (areDigits : digits.all Char.isDigit = true) (value : Nat) :
    digits.foldlM (fun value c => ((Text.hexValue? c).filter (· < 10)).map (value * 10 + ·)) value =
      some (Nat.ofDigitChars 10 digits value) := by
  induction digits generalizing value with
  | nil => rfl
  | cons c rest ih =>
    simp only [List.all_cons, Bool.and_eq_true] at areDigits
    obtain ⟨read, small⟩ := hexValue?_of_isDigit areDigits.1
    rw [List.foldlM_cons, read, Option.filter_some, if_pos (decide_eq_true small), Option.map_some,
      Option.bind_eq_bind, Option.bind_some, ih areDigits.2, Nat.ofDigitChars_cons, Nat.mul_comm]

theorem digitsInBase?_of_digits {digits : List Char} (nonempty : digits ≠ [])
    (areDigits : digits.all Char.isDigit = true) :
    digitsInBase? 10 digits = some (decimalValue digits) := by
  rw [digitsInBase?, if_neg (by simpa using nonempty), foldlM_digits areDigits, decimalValue]

/-- Only digits are digits in base ten. -/
theorem areDigits_of_digitsInBase? {cs : List Char} {value : Nat} (read : digitsInBase? 10 cs = some value) :
    cs.all Char.isDigit = true := by
  have step (start : Nat) (success : (cs.foldlM
      (fun value c => ((Text.hexValue? c).filter (· < 10)).map (value * 10 + ·)) start).isSome = true) :
      cs.all Char.isDigit = true := by
    clear read
    induction cs generalizing start with
    | nil => rfl
    | cons c rest ih =>
      rw [List.foldlM_cons] at success
      cases digit : Text.hexValue? c with
      | none => simp [digit] at success
      | some found =>
        by_cases small : found < 10
        · simp only [digit, Option.filter_some, small, decide_true, if_true, Option.map_some,
            Option.bind_eq_bind, Option.bind_some] at success
          rw [List.all_cons, isDigit_of_hexValue? digit small, ih _ success]
          rfl
        · simp [digit, Option.filter_some, small] at success
  unfold digitsInBase? at read
  split at read
  · cases read
  · exact step 0 (by rw [read]; rfl)

/-- A power of ten adds zeros at the end. -/
theorem toDigits_mul_pow {n : Nat} (positive : 0 < n) (count : Nat) :
    Nat.toDigits 10 (n * 10 ^ count) = Nat.toDigits 10 n ++ List.replicate count '0' := by
  induction count with
  | zero => simp
  | succ count ih =>
    have part : 0 < n * 10 ^ count := Nat.mul_pos positive (Nat.pow_pos (by decide))
    have split : n * 10 ^ (count + 1) = 10 * (n * 10 ^ count) := by
      rw [Nat.pow_succ, ← Nat.mul_assoc, Nat.mul_comm]
    have last : Nat.digitChar (10 * (n * 10 ^ count) % 10) = '0' := by
      rw [Nat.mul_mod_right]
      rfl
    rw [split, Nat.toDigits_of_base_le (by decide) (by omega), Nat.mul_div_cancel_left _ (by decide), ih, last,
      List.append_assoc, List.replicate_succ']

namespace Decimal

theorem trailingZeros_of_lt_ten {n : Nat} (positive : 0 < n) (small : n < 10) : trailingZeros n = 0 := by
  have noZero : (n.digitChar == '0') = false := by
    rw [beq_eq_false_iff_ne, ne_eq, Nat.digitChar_eq_zero]
    omega
  rw [trailingZeros, Nat.toDigits_of_lt_base small]
  simp [noZero]

theorem trailingZeros_of_ten_le {n : Nat} (large : 10 ≤ n) :
    trailingZeros n = if n % 10 = 0 then trailingZeros (n / 10) + 1 else 0 := by
  rw [trailingZeros, Nat.toDigits_of_base_le (by decide) large, List.reverse_append, List.reverse_singleton,
    List.singleton_append, List.takeWhile_cons]
  by_cases zero : n % 10 = 0
  · simp [zero, trailingZeros]
  · have noZero : ((n % 10).digitChar == '0') = false := by
      rw [beq_eq_false_iff_ne, ne_eq, Nat.digitChar_eq_zero]
      exact zero
    simp [zero, noZero]

theorem trailingZeros_mul_pow {n : Nat} (positive : 0 < n) (count : Nat) :
    trailingZeros (n * 10 ^ count) = trailingZeros n + count := by
  induction count with
  | zero => rw [Nat.pow_zero, Nat.mul_one, Nat.add_zero]
  | succ count ih =>
    have part : 0 < n * 10 ^ count := Nat.mul_pos positive (Nat.pow_pos (by decide))
    have split : n * 10 ^ (count + 1) = 10 * (n * 10 ^ count) := by
      rw [Nat.pow_succ, ← Nat.mul_assoc, Nat.mul_comm]
    rw [split, trailingZeros_of_ten_le (by omega), if_pos (Nat.mul_mod_right 10 _),
      Nat.mul_div_cancel_left _ (by decide), ih, Nat.add_assoc]

/-- A power of ten divides a positive number exactly if its exponent is at most the number of zeros. -/
theorem le_trailingZeros_iff (count : Nat) {n : Nat} (positive : 0 < n) :
    count ≤ trailingZeros n ↔ 10 ^ count ∣ n := by
  induction n using Nat.strongRecOn generalizing count with
  | ind n ih =>
    cases count with
    | zero => simp
    | succ count =>
      by_cases small : n < 10
      · rw [trailingZeros_of_lt_ten positive small]
        apply iff_of_false (by omega)
        intro divides
        have least := Nat.le_of_dvd positive divides
        have power : 0 < 10 ^ count := Nat.pow_pos (by decide)
        rw [Nat.pow_succ] at least
        omega
      · rw [trailingZeros_of_ten_le (by omega)]
        by_cases zero : n % 10 = 0
        · have split : n = 10 * (n / 10) := by omega
          rw [if_pos zero, Nat.add_le_add_iff_right, ih (n / 10) (by omega) count (by omega)]
          conv => rhs; rw [split, Nat.pow_succ, Nat.mul_comm]
          exact (Nat.mul_dvd_mul_iff_left (by decide)).symm
        · rw [if_neg zero]
          apply iff_of_false (by omega)
          intro divides
          rw [Nat.pow_succ] at divides
          apply zero
          exact Nat.mod_eq_zero_of_dvd (Nat.dvd_trans (Nat.dvd_mul_left 10 (10 ^ count)) divides)

/-- A decimal is an integer exactly if its scale leaves no digit behind the point but zeros. -/
theorem isSome_toInteger?_iff (decimal : Decimal) :
    decimal.toInteger?.isSome = true ↔ 10 ^ decimal.scale.toNat ∣ decimal.digits.natAbs := by
  unfold toInteger? reduced
  by_cases zero : decimal.digits = 0
  · simp [zero]
  · have counted := le_trailingZeros_iff decimal.scale.toNat (Int.natAbs_pos.mpr zero)
    simp only [zero, if_false]
    rw [← counted]
    split
    · simp only [Option.isSome_some, true_iff]
      omega
    · simp only [Option.isSome_none, Bool.false_eq_true, false_iff]
      omega

end Decimal

end ClassSchema
