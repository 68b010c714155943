import ClassSchema.Struct.Profile

/-! # Settings

What a user may choose: where imports are searched, how JSON is laid out, whether validation checks the
format of dates, and how structs are spelled.
-/

namespace ClassSchema

/-- How JSON output is laid out. -/
inductive JsonLayout where
  | pretty
  | compact
deriving DecidableEq, Repr, Inhabited

/-- The name of a layout. -/
def JsonLayout.name : JsonLayout → String
  | .pretty => "pretty"
  | .compact => "compact"

/-- The layout of a name. -/
def JsonLayout.ofName? (name : String) : Option JsonLayout :=
  if name = "pretty" then some .pretty
  else if name = "compact" then some .compact
  else none

/-- The choices of a user. -/
structure Settings where
  /-- The directories in which imports are searched, in order. -/
  searchPaths : List String := ["."]
  /-- Whether the built-in library is among the sources of imports. -/
  builtinLibrary : Bool := true
  jsonLayout : JsonLayout := .pretty
  /-- Whether dates must be dates of the calendar to be valid. -/
  validateFormats : Bool := true
  profile : RenderProfile := {}
deriving DecidableEq, Repr, Inhabited

end ClassSchema
