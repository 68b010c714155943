import ClassSchema.Data
import ClassSchema.Instance
import ClassSchema.ScalarKind

/-! # Coercions

How untyped data becomes a scalar of a kind. The lenient mode also takes numbers and truth values from
text, as a reader of block text finds them; the typed mode takes them from literals only.
-/

namespace ClassSchema

/-- Which spellings of numbers and truth values are taken. -/
inductive CoercionMode where
  | lenient
  | typed
deriving DecidableEq, Repr

/-- Why data is no value of a kind. -/
inductive CoercionReason where
  /-- The data has another type; `wanted` says what it is not. -/
  | wrongType (typeName wanted : String)
  | integer (error : IntegerError)
  | decimal (error : DecimalError)
  | boolean
  | date (error : DateError)
  | uri
  | notMapping (typeName : String)
  | undefinedClass
  | needsList
  | missing
  | noAttribute (className attr : String)
deriving DecidableEq, Repr

/-- The wording of a reason. -/
def CoercionReason.message : CoercionReason → String
  | .wrongType typeName wanted => s!"{typeName} is not {wanted}"
  | .integer error => error.message
  | .decimal error => error.message
  | .boolean => "not a canonical boolean"
  | .date error => error.message
  | .uri => "empty or contains whitespace"
  | .notMapping typeName => s!"{typeName} is not a mapping"
  | .undefinedClass => "class is not defined in this schema"
  | .needsList => "multivalued attribute needs a list"
  | .missing => "missing required value"
  | .noAttribute className attr => s!"{className} has no attribute '{attr}'"

/-- Whether a text is a URI: it is not empty and has no blanks. -/
def isUriText (text : String) : Bool :=
  !text.isEmpty && text.toList.all fun c => !Text.isBlank c

/-- The pattern of URIs, as the output for validators states it. -/
def uriPattern : String := "^\\S+$"

/-- The literal of a number, which in lenient mode may be a text. -/
def numericLiteral? (mode : CoercionMode) : Data → Option String
  | .number literal => some literal
  | .text literal => if mode = .lenient then some literal else none
  | _ => none

/-- An integer from data. -/
def coerceInteger (mode : CoercionMode) (data : Data) : Except CoercionReason Value :=
  match numericLiteral? mode data with
  | none => .error (.wrongType data.typeName "numeric")
  | some literal => ((parseInteger literal).map Value.integer).mapError .integer

/-- A decimal from data. -/
def coerceDecimal (mode : CoercionMode) (data : Data) : Except CoercionReason Value :=
  match numericLiteral? mode data with
  | none => .error (.wrongType data.typeName "numeric")
  | some literal => ((Decimal.parse literal).map Value.decimal).mapError .decimal

/-- A truth value from data. -/
def coerceBoolean (mode : CoercionMode) : Data → Except CoercionReason Value
  | .bool value => .ok (.boolean value)
  | .text value =>
    if mode = .typed then .error (.wrongType "text" "a boolean")
    else if ["true", "True", "TRUE"].contains value then .ok (.boolean true)
    else if ["false", "False", "FALSE"].contains value then .ok (.boolean false)
    else .error .boolean
  | data => .error (.wrongType data.typeName "a boolean")

/-- A scalar of a kind from data. -/
def coerceScalar (mode : CoercionMode) (kind : ScalarKind) (data : Data) :
    Except CoercionReason Value :=
  match kind with
  | .integer => coerceInteger mode data
  | .decimal => coerceDecimal mode data
  | .boolean => coerceBoolean mode data
  | .string =>
    match data with
    | .text value => .ok (.text value)
    | data => .error (.wrongType data.typeName "text")
  | .date =>
    match data with
    | .text value => ((Date.parse value).map Value.date).mapError .date
    | data => .error (.wrongType data.typeName "a date")
  | .uri =>
    match data with
    | .text value => if isUriText value then .ok (.uri value) else .error .uri
    | data => .error (.wrongType data.typeName "a URI")

end ClassSchema
