import ClassSchema.Proofs.Digits
import ClassSchema.Validation.Rule

/-! # Reading dates

A text is read as a date exactly if it has ASCII digits in the places of a date and these are a day of the
calendar, whatever fault is reported otherwise. So the written form of a date is read back, and validators
that check the format of dates take the same texts.
-/

namespace ClassSchema

namespace Date

/-- Two digits are read as their number up to a bound, whatever fault is reported otherwise. -/
private theorem toOption_twoDigits (tens units : Char) (most : Nat) (strange : DateError) :
    (if !tens.isDigit then Except.error DateError.invalidCharacters
      else if !units.isDigit then if tens = '0' then .error .outOfRange else .error strange
      else if 1 ≤ number [tens, units] ∧ number [tens, units] ≤ most then .ok (number [tens, units])
      else .error .outOfRange).toOption =
      if tens.isDigit && units.isDigit && 1 ≤ number [tens, units] && number [tens, units] ≤ most then
        some (number [tens, units])
      else none := by
  cases tens.isDigit <;> cases units.isDigit
  · rfl
  · rfl
  · simp only [Bool.not_true, Bool.false_eq_true, if_false, Bool.not_false, if_true]
    split <;> rfl
  · simp only [Bool.not_true, Bool.false_eq_true, if_false, Bool.true_and, Bool.and_eq_true,
      decide_eq_true_eq]
    split <;> rfl

theorem toOption_parseMonth (tens units : Char) :
    (parseMonth tens units).toOption =
      if tens.isDigit && units.isDigit && 1 ≤ number [tens, units] && number [tens, units] ≤ 12 then
        some (number [tens, units])
      else none :=
  toOption_twoDigits tens units 12 .invalidCharacters

theorem toOption_parseDay (tens units : Char) :
    (parseDay tens units).toOption =
      if tens.isDigit && units.isDigit && 1 ≤ number [tens, units] && number [tens, units] ≤ 31 then
        some (number [tens, units])
      else none :=
  toOption_twoDigits tens units 31 .trailing

theorem daysInMonth_le (year month : Nat) : daysInMonth year month ≤ 31 := by
  unfold daysInMonth
  split
  · split <;> decide
  · split <;> decide

/-- A day of the calendar has a month and a day in the ranges of their digits. -/
theorem ranges_of_isCalendarDay {year month day : Nat} (isDay : isCalendarDay year month day = true) :
    1 ≤ month ∧ month ≤ 12 ∧ 1 ≤ day ∧ day ≤ 31 := by
  have most := daysInMonth_le year month
  simp only [isCalendarDay, Bool.and_eq_true, decide_eq_true_eq] at isDay
  omega

/-- Beyond the ranges of its digits, no month and day are a date. -/
theorem ofDay?_eq_none {year month day : Nat} (beyond : ¬ (1 ≤ month ∧ month ≤ 12 ∧ 1 ≤ day ∧ day ≤ 31)) :
    ofDay? year month day = none := by
  rw [ofDay?, dif_neg fun isDay => beyond (ranges_of_isCalendarDay isDay)]

private theorem toOption_chain (month day : Except DateError Nat) (date? : Nat → Nat → Option Date) :
    Except.toOption (do
      let month ← month
      let day ← day
      match date? month day with
      | some date => return date
      | none => .error .outOfRange) =
      month.toOption.bind fun month => day.toOption.bind (date? month) := by
  cases month with
  | error error => rfl
  | ok month =>
    cases day with
    | error error => rfl
    | ok day =>
      simp only [bind, Except.bind, Except.toOption, Option.bind_some]
      cases date? month day <;> rfl

/-- In the shape of a date, the digits and the calendar decide. -/
theorem toOption_parse {text : String} {y1 y2 y3 y4 m1 m2 d1 d2 : Char}
    (shape : text.toList = [y1, y2, y3, y4, '-', m1, m2, '-', d1, d2]) :
    (parse text).toOption =
      if [y1, y2, y3, y4, m1, m2, d1, d2].all Char.isDigit then
        ofDay? (number [y1, y2, y3, y4]) (number [m1, m2]) (number [d1, d2])
      else none := by
  have split : [y1, y2, y3, y4, m1, m2, d1, d2].all Char.isDigit =
      ([y1, y2, y3, y4].all Char.isDigit && ((m1.isDigit && m2.isDigit) && (d1.isDigit && d2.isDigit))) := by
    simp only [List.all_cons, List.all_nil, Bool.and_true, Bool.and_assoc]
  have chain := toOption_chain (parseMonth m1 m2) (parseDay d1 d2)
    (ofDay? (number [y1, y2, y3, y4]))
  rw [toOption_parseMonth, toOption_parseDay] at chain
  unfold parse
  simp only [shape]
  cases allDigits : [y1, y2, y3, y4, m1, m2, d1, d2].all Char.isDigit with
  | true =>
    have decimal : [y1, y2, y3, y4, m1, m2, d1, d2].all Text.isDecimalDigit = true :=
      List.all_eq_true.mpr fun c member =>
        Text.isDecimalDigit_of_isDigit (List.all_eq_true.mp allDigits c member)
    simp only [split, Bool.and_eq_true] at allDigits
    obtain ⟨years, ⟨tens, units⟩, dayTens, dayUnits⟩ := allDigits
    simp only [decimal, years, Bool.not_true, Bool.false_eq_true, if_false, if_true]
    apply chain.trans
    simp only [tens, units, dayTens, dayUnits, Bool.true_and, Bool.and_eq_true, decide_eq_true_eq]
    by_cases inYear : 1 ≤ number [m1, m2] ∧ number [m1, m2] ≤ 12
    · by_cases inMonth : 1 ≤ number [d1, d2] ∧ number [d1, d2] ≤ 31
      · rw [if_pos inYear, if_pos inMonth]
        rfl
      · rw [if_pos inYear, if_neg inMonth, ofDay?_eq_none (by omega)]
        rfl
    · rw [if_neg inYear, ofDay?_eq_none (by omega)]
      rfl
  | false =>
    rw [split] at allDigits
    cases years : [y1, y2, y3, y4].all Char.isDigit with
    | false =>
      split <;> rfl
    | true =>
      rw [years, Bool.true_and] at allDigits
      simp only [Bool.not_true, Bool.false_eq_true, if_false]
      split
      · rfl
      · apply chain.trans
        cases month : m1.isDigit && m2.isDigit with
        | false => rfl
        | true =>
          rw [month, Bool.true_and] at allDigits
          rw [allDigits]
          simp

/-- A text without the shape of a date is not read as one. -/
theorem parse_of_noShape {text : String}
    (noShape : ∀ y1 y2 y3 y4 m1 m2 d1 d2, text.toList ≠ [y1, y2, y3, y4, '-', m1, m2, '-', d1, d2]) :
    parse text = .error .shape := by
  unfold parse
  split
  · rename_i shape
    exact absurd shape (noShape _ _ _ _ _ _ _ _)
  · rfl

/-- A number that fits is written in a width with digits that spell it. -/
theorem padded_spec (width : Nat) {n : Nat} (wide : 0 < width) (fits : n < 10 ^ width) :
    (padded width n).length = width ∧ (padded width n).all Char.isDigit = true ∧
      number (padded width n) = n := by
  have short := (Nat.length_toDigits_le_iff (b := 10) (by decide) wide).mpr fits
  refine ⟨?_, ?_, ?_⟩
  · simp only [padded, List.length_append, List.length_replicate]
    omega
  · simp only [padded, List.all_append, List.all_replicate, isDigit_toDigits]
    split <;> decide
  · rw [number_eq, padded, decimalValue_append, decimalValue_replicate_zero, decimalValue_toDigits,
      Nat.mul_zero, Nat.zero_add]

private theorem exists_two {cs : List Char} (length : cs.length = 2) : ∃ c1 c2, cs = [c1, c2] :=
  match cs, length with
  | [c1, c2], _ => ⟨c1, c2, rfl⟩

private theorem exists_four {cs : List Char} (length : cs.length = 4) :
    ∃ c1 c2 c3 c4, cs = [c1, c2, c3, c4] :=
  match cs, length with
  | [c1, c2, c3, c4], _ => ⟨c1, c2, c3, c4, rfl⟩

/-- The written form of a date is read back. -/
theorem parse_text (date : Date) : parse date.text = .ok date := by
  obtain ⟨year, month, day, isDay⟩ := date
  have ranges := ranges_of_isCalendarDay isDay
  have inYears : year < 10 ^ 4 := by
    simp only [isCalendarDay, Bool.and_eq_true, decide_eq_true_eq] at isDay
    omega
  obtain ⟨yearLength, yearDigits, yearNumber⟩ := padded_spec 4 (by decide) inYears
  obtain ⟨monthLength, monthDigits, monthNumber⟩ := padded_spec 2 (n := month) (by decide) (by omega)
  obtain ⟨dayLength, dayDigits, dayNumber⟩ := padded_spec 2 (n := day) (by decide) (by omega)
  have shape : (text ⟨year, month, day, isDay⟩).toList =
      padded 4 year ++ '-' :: padded 2 month ++ '-' :: padded 2 day := String.toList_ofList
  obtain ⟨y1, y2, y3, y4, years⟩ := exists_four yearLength
  obtain ⟨m1, m2, months⟩ := exists_two monthLength
  obtain ⟨d1, d2, days⟩ := exists_two dayLength
  rw [years, months, days] at shape
  rw [years] at yearDigits yearNumber
  rw [months] at monthDigits monthNumber
  rw [days] at dayDigits dayNumber
  have read := toOption_parse shape
  have allDigits : [y1, y2, y3, y4, m1, m2, d1, d2].all Char.isDigit = true := by
    change ([y1, y2, y3, y4] ++ ([m1, m2] ++ [d1, d2])).all Char.isDigit = true
    rw [List.all_append, List.all_append, yearDigits, monthDigits, dayDigits]
    rfl
  rw [if_pos allDigits, yearNumber, monthNumber, dayNumber, ofDay?, dif_pos isDay] at read
  cases result : parse (text ⟨year, month, day, isDay⟩) with
  | error error => simp [result, Except.toOption] at read
  | ok date =>
    rw [result] at read
    exact congrArg Except.ok (Option.some.inj read)

theorem isSome_ofDay? (year month day : Nat) :
    (ofDay? year month day).isSome = isCalendarDay year month day := by
  unfold ofDay?
  split
  · rename_i isDay
    rw [isDay]
    rfl
  · rename_i noDay
    rw [Bool.eq_false_iff.mpr noDay]
    rfl

end Date

private theorem isSome_toOption {ε α : Type} (result : Except ε α) : result.toOption.isSome = result.isOk := by
  cases result <;> rfl

/-- A text is a date for validators exactly if it is read as one. -/
theorem isDateText_eq_isOk_parse (text : String) : isDateText text = (Date.parse text).isOk := by
  unfold isDateText
  split
  · rename_i shape
    rw [← isSome_toOption, Date.toOption_parse shape]
    split
    · rename_i allDigits
      rw [allDigits, Date.isSome_ofDay?, Bool.true_and]
    · rename_i notAll
      rw [Bool.eq_false_iff.mpr notAll]
      rfl
  · rename_i noShape
    rw [Date.parse_of_noShape fun y1 y2 y3 y4 m1 m2 d1 d2 => noShape y1 y2 y3 y4 m1 m2 d1 d2]
    rfl

/-- A date matches the pattern of dates. -/
theorem TextPattern.accepts_of_isDateText {text : String} (isDate : isDateText text = true) :
    TextPattern.date.accepts text = true := by
  unfold isDateText at isDate
  split at isDate
  · rename_i shape
    simp only [accepts, shape]
    exact (Bool.and_eq_true_iff.mp isDate).1
  · cases isDate

end ClassSchema
