import ClassSchema.Table
import ClassSchema.Text.Inspect

/-! # Untyped data

What a JSON or YAML document says before any schema is applied, and what construction takes as input.
Numbers are carried as the literal that was written, so no digit is lost on the way to a typed value.
-/

namespace ClassSchema

/-- A tree of untyped values; the entries of a map keep their order. -/
inductive Data where
  | null
  | bool (value : Bool)
  /-- A number, as the literal that was written. -/
  | number (literal : String)
  | text (value : String)
  | list (items : List Data)
  | map (entries : List (String × Data))
deriving Inhabited, BEq, Repr

namespace Data

/-- The word for a value's kind in messages. -/
def typeName : Data → String
  | .null => "null"
  | .bool _ => "boolean"
  | .number _ => "number"
  | .text _ => "text"
  | .list _ => "list"
  | .map _ => "mapping"

/-- A short rendering for messages: scalars in full, collections by their size. -/
def describe : Data → String
  | .null => "null"
  | .bool value => if value then "true" else "false"
  | .number literal => literal
  | .text value => Text.inspect value
  | .list items => s!"list of {items.length}"
  | .map entries => s!"mapping with {entries.length} key(s)"

/-- Whether the value is null. -/
def isNull : Data → Bool
  | .null => true
  | _ => false

end Data

/-- An entry that is left out when its text is absent. -/
def optionalMember (name : String) : Option String → List (String × Data)
  | some value => [(name, .text value)]
  | none => []

end ClassSchema
