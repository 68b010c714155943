import ClassSchema.Instance.Construction
import ClassSchema.Json.Number
import ClassSchema.Json.Writer

/-! # Instances as JSON

An instance becomes a map of its attributes that are not null. Integers and decimals become number
literals with every digit, and dates become texts.
-/

namespace ClassSchema

/-- Why an instance cannot be written. -/
inductive EncodingError where
  | nullInList (path : String)
  | nestedList (path : String)
  | notJsonNumber (path literal : String)
  /-- A zero has an exponent of more than 64 bits. -/
  | overflow
deriving DecidableEq, Repr

/-- The wording of an encoding error. -/
def EncodingError.message : EncodingError → String
  | .nullInList path => s!"cannot encode {path}: null inside a list"
  | .nestedList path => s!"cannot encode {path}: nested lists have no attribute form"
  | .notJsonNumber path literal => s!"cannot encode {path}: '{literal}' is not a JSON number"
  | .overflow => "the exponent of a zero is out of range"

/-- The text of a decimal, which must have one. -/
def decimalText (decimal : Decimal) : Except EncodingError String :=
  match decimal.text? with
  | some text => .ok text
  | none => .error .overflow

/-- A number literal, which must be one of JSON. -/
def numberData (path literal : String) : Except EncodingError Data :=
  match Json.literal? literal with
  | some literal => .ok (.number literal)
  | none => .error (.notJsonNumber path literal)

namespace Value

mutual

/-- A value that stands at a path, as JSON data. -/
def toJson (path : String) : Value → Except EncodingError Data
  | .null => .error (.nullInList path)
  | .text value => .ok (.text value)
  | .uri value => .ok (.text value)
  | .integer value => numberData path (toString value)
  | .decimal value => (decimalText value).bind (numberData path)
  | .boolean value => .ok (.bool value)
  | .date value => .ok (.text value.text)
  | .list items => (itemsToJson path 0 items).map .list
  | .object _ fields => (fieldsToJson path fields).map .map

/-- Items from a position on, as JSON data. -/
def itemsToJson (path : String) (index : Nat) : List Value → Except EncodingError (List Data)
  | [] => .ok []
  | item :: rest => do
    let item ← item.toJson (itemPath path index)
    let rest ← itemsToJson path (index + 1) rest
    return item :: rest

/-- The attributes that have a value, as JSON data. -/
def fieldsToJson (path : String) : List (String × Value) → Except EncodingError (List (String × Data))
  | [] => .ok []
  | (name, value) :: rest =>
    if value.isNull then fieldsToJson path rest
    else do
      let value ← value.toJson (joinPath path name)
      let rest ← fieldsToJson path rest
      return (name, value) :: rest

end

end Value

namespace Instance

/-- The instance as JSON data. -/
def toJson (instanceValue : Instance) : Except EncodingError Data :=
  (Value.fieldsToJson "" instanceValue.fields).map .map

/-- The instance as compact JSON text. -/
def toJsonText (instanceValue : Instance) : Except EncodingError String :=
  instanceValue.toJson.map Json.compact

/-- The instance as indented JSON text. -/
def toIndentedJsonText (instanceValue : Instance) : Except EncodingError String :=
  instanceValue.toJson.map Json.indented

end Instance

end ClassSchema
