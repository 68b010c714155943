import ClassSchema.Data
import ClassSchema.Date
import ClassSchema.Instance.Coercion
import ClassSchema.Number.Literal
import ClassSchema.Number.Word

/-! # Rules for scalars

What a validation document asks of a scalar of each kind: a JSON type, and for texts perhaps a pattern and
the format of dates. Rules are stated in the vocabulary of JSON Schema, so they do not say quite the same
as construction: patterns have their own notion of digits and blanks, and integers are told from other
numbers by their nearest double.
-/

namespace ClassSchema

/-- A type of JSON data. -/
inductive JsonType where
  | array
  | boolean
  | integer
  | null
  | number
  | object
  | string
deriving DecidableEq, Repr

/-- The name of a type. -/
def JsonType.name : JsonType → String
  | .array => "array"
  | .boolean => "boolean"
  | .integer => "integer"
  | .null => "null"
  | .number => "number"
  | .object => "object"
  | .string => "string"

/-- A pattern that texts must match. -/
inductive TextPattern where
  /-- Digits and hyphens in the places of a date. -/
  | date
  /-- No blanks, and one character at least. -/
  | uri
deriving DecidableEq, Repr

/-- The regular expression of a pattern. -/
def TextPattern.text : TextPattern → String
  | .date => Date.pattern
  | .uri => uriPattern

/-- What a validation document asks of a scalar. -/
structure ScalarRule where
  type : JsonType
  /-- Whether texts must be dates of the calendar. -/
  isDate : Bool
  pattern? : Option TextPattern
deriving DecidableEq, Repr

/-- The rule for a kind. -/
def ScalarKind.rule : ScalarKind → ScalarRule
  | .string => ⟨.string, false, none⟩
  | .integer => ⟨.integer, false, none⟩
  | .decimal => ⟨.number, false, none⟩
  | .boolean => ⟨.boolean, false, none⟩
  | .date => ⟨.string, true, some .date⟩
  | .uri => ⟨.string, false, some .uri⟩

/-- Whether a pattern takes a character for a blank. -/
def isPatternBlank (c : Char) : Bool :=
  (0x9 ≤ c.toNat && c.toNat ≤ 0xd) || c.toNat == 0x20 || c.toNat == 0xa0 || c.toNat == 0xfeff ||
  c.toNat == 0x2003 || c.toNat == 0x2029

/-- Whether a text matches a pattern. -/
def TextPattern.accepts : TextPattern → String → Bool
  | .date, text =>
    match text.toList with
    | [y1, y2, y3, y4, '-', m1, m2, '-', d1, d2] => [y1, y2, y3, y4, m1, m2, d1, d2].all Char.isDigit
    | _ => false
  | .uri, text => !text.isEmpty && text.toList.all fun c => !isPatternBlank c

/-- Whether a text is a date of the calendar in ASCII digits. -/
def isDateText (text : String) : Bool :=
  match text.toList with
  | [y1, y2, y3, y4, '-', m1, m2, '-', d1, d2] =>
    [y1, y2, y3, y4, m1, m2, d1, d2].all Char.isDigit &&
      isCalendarDay (Date.number [y1, y2, y3, y4]) (Date.number [m1, m2]) (Date.number [d1, d2])
  | _ => false

/-- Whether digits with perhaps a minus sign spell an integer of 64 bits. -/
def isWordLiteral (literal : String) : Bool :=
  let (negative, digits) := splitSign literal.toList
  match digitsInBase? 10 digits with
  | some value =>
    let signed : Int := if negative then -value else value
    isAnyWord signed
  | none => false

/-- Whether a number counts as an integer: it is one of 64 bits, or else its nearest double has no
fraction. A number whose nearest double is infinite has no measure. -/
def isIntegerLiteral? (literal : String) : Option Bool :=
  if isWordLiteral literal then some true
  else (Binary64.ofLiteral? literal).bind Binary64.isIntegral?

/-- Whether data has a type; `none` if it is a number without measure. -/
def JsonType.accepts? : JsonType → Data → Option Bool
  | .null, .null => some true
  | .boolean, .bool _ => some true
  | .number, .number _ => some true
  | .integer, .number literal => isIntegerLiteral? literal
  | .string, .text _ => some true
  | .array, .list _ => some true
  | .object, .map _ => some true
  | _, _ => some false

end ClassSchema
