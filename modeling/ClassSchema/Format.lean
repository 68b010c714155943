/-! # Formats

Instances are written and read as JSON or as block text, which is YAML laid out by indentation.
-/

namespace ClassSchema

/-- A format of instances. -/
inductive Format where
  | json
  | block
deriving DecidableEq, Repr

namespace Format

/-- The name of a format. -/
def name : Format → String
  | .json => "json"
  | .block => "block"

/-- The format that a name stands for. -/
def ofName? (name : String) : Option Format :=
  if name = "json" then some .json
  else if ["yaml", "yml", "block"].contains name then some .block
  else none

/-- The message for a name that stands for no format. -/
def unknownMessage (name : String) : String :=
  s!"unknown format '{name}' (expected json or yaml)"

/-- The format of files with an extension. -/
def ofExtension? (extension : String) : Option Format :=
  if extension = "json" then some .json
  else if ["yaml", "yml"].contains extension then some .block
  else none

end Format

end ClassSchema
