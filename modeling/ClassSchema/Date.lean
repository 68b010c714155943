import ClassSchema.Text.DecimalDigit

/-! # Calendar dates

Dates of the proleptic Gregorian calendar with a year of four digits, written as year, month and day.
-/

namespace ClassSchema

/-- Whether a year has a leap day. -/
def isLeapYear (year : Nat) : Bool :=
  (year % 4 == 0 && year % 100 != 0) || year % 400 == 0

/-- How many days a month has. -/
def daysInMonth (year month : Nat) : Nat :=
  if month = 2 then (if isLeapYear year then 29 else 28)
  else if month = 4 ∨ month = 6 ∨ month = 9 ∨ month = 11 then 30
  else 31

/-- Whether a year, a month and a day make a date. -/
def isCalendarDay (year month day : Nat) : Bool :=
  year < 10000 && 1 ≤ month && month ≤ 12 && 1 ≤ day && day ≤ daysInMonth year month

/-- A date of the calendar. -/
structure Date where
  year : Nat
  month : Nat
  day : Nat
  isDay : isCalendarDay year month day = true
deriving DecidableEq, Repr

/-- Why a text is no date. -/
inductive DateError where
  /-- The text has not four, two and two digits with hyphens between them. -/
  | shape
  /-- A digit is none of ASCII. -/
  | invalidCharacters
  | outOfRange
  | trailing
deriving DecidableEq, Repr

/-- The wording of a date's fault. -/
def DateError.message : DateError → String
  | .shape => "not an ISO-8601 date (YYYY-MM-DD)"
  | .invalidCharacters => "invalid calendar date: input contains invalid characters"
  | .outOfRange => "invalid calendar date: input is out of range"
  | .trailing => "invalid calendar date: trailing input"

namespace Date

/-- The pattern of dates, as the output for validators states it. -/
def pattern : String := "^\\d\x7b4\x7d-\\d\x7b2\x7d-\\d\x7b2\x7d$"

/-- The date of a year, a month and a day, if there is one. -/
def ofDay? (year month day : Nat) : Option Date :=
  if isDay : isCalendarDay year month day = true then some ⟨year, month, day, isDay⟩ else none

/-- The number that ASCII digits spell. -/
def number (digits : List Char) : Nat :=
  digits.foldl (fun value c => value * 10 + (c.toNat - '0'.toNat)) 0

/-- The month, read from its two digits. -/
def parseMonth (tens units : Char) : Except DateError Nat :=
  if !tens.isDigit then .error .invalidCharacters
  else if !units.isDigit then
    if tens = '0' then .error .outOfRange else .error .invalidCharacters
  else
    let month := number [tens, units]
    if 1 ≤ month ∧ month ≤ 12 then .ok month else .error .outOfRange

/-- The day, read from its two digits. -/
def parseDay (tens units : Char) : Except DateError Nat :=
  if !tens.isDigit then .error .invalidCharacters
  else if !units.isDigit then
    if tens = '0' then .error .outOfRange else .error .trailing
  else
    let day := number [tens, units]
    if 1 ≤ day ∧ day ≤ 31 then .ok day else .error .outOfRange

/-- The date that a text spells. -/
def parse (text : String) : Except DateError Date :=
  match text.toList with
  | [y1, y2, y3, y4, '-', m1, m2, '-', d1, d2] =>
    if !([y1, y2, y3, y4, m1, m2, d1, d2].all Text.isDecimalDigit) then .error .shape
    else if !([y1, y2, y3, y4].all Char.isDigit) then .error .invalidCharacters
    else do
      let month ← parseMonth m1 m2
      let day ← parseDay d1 d2
      match ofDay? (number [y1, y2, y3, y4]) month day with
      | some date => return date
      | none => .error .outOfRange
  | _ => .error .shape

/-- A number with leading zeros up to a width. -/
def padded (width n : Nat) : List Char :=
  let digits := Nat.toDigits 10 n
  List.replicate (width - digits.length) '0' ++ digits

/-- The date as text. -/
def text (date : Date) : String :=
  String.ofList (padded 4 date.year ++ '-' :: padded 2 date.month ++ '-' :: padded 2 date.day)

end Date

end ClassSchema
