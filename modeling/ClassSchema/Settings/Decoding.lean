import ClassSchema.Data
import ClassSchema.Settings
import ClassSchema.Table

/-! # Settings from data

Settings are read from a tree of data: sections by name, and in each section values by name. What is left
out has its default, and what is not known is passed over. A section may also be a list of its values in
their order. How a value may be spelled depends on where the data comes from.
-/

namespace ClassSchema

/-- Which data stands for which values. -/
structure SettingReader where
  bool? : Data → Option Bool
  text? : Data → Option String
  /-- The layout of a name. -/
  layout? : String → Option JsonLayout
  /-- Whether data beyond what is asked for is passed over. -/
  ignoresSurplus : Bool

namespace SettingReader

/-- A truth value as it is. -/
def plainBool? : Data → Option Bool
  | .bool value => some value
  | _ => none

/-- A text as it is. -/
def plainText? : Data → Option String
  | .text value => some value
  | _ => none

/-- The reader that takes every value as it is. -/
def strict : SettingReader where
  bool? := plainBool?
  text? := plainText?
  layout? := JsonLayout.ofName?
  ignoresSurplus := false

/-- A text with its ASCII capitals made small. -/
def lowerCase (text : String) : String :=
  String.ofList (text.toList.map Char.toLower)

/-- A truth value, also as a number or as one of the words for it. -/
def looseBool? : Data → Option Bool
  | .bool value => some value
  | .number literal => some (literal ≠ "0" && literal ≠ "-0")
  | .text value =>
    if ["1", "true", "on", "yes"].contains (lowerCase value) then some true
    else if ["0", "false", "off", "no"].contains (lowerCase value) then some false
    else none
  | _ => none

/-- A text, also as a number or a truth value. -/
def looseText? : Data → Option String
  | .text value => some value
  | .number literal => some literal
  | .bool value => some (if value then "true" else "false")
  | _ => none

/-- The reader for settings files and the environment. -/
def loose : SettingReader where
  bool? := looseBool?
  text? := looseText?
  layout? name := JsonLayout.ofName? (lowerCase name)
  ignoresSurplus := true

/-- The values of a section by name. -/
def section? (reader : SettingReader) (names : List String) : Data → Option (Table Data)
  | .map entries => some entries
  | .list items => if reader.ignoresSurplus || items.length ≤ names.length then some (names.zip items) else none
  | _ => none

/-- The value of a name, or the default. -/
def field? {α : Type} (fields : Table Data) (name : String) (default : α) (decode : Data → Option α) :
    Option α :=
  match fields.get? name with
  | some data => decode data
  | none => some default

/-- Texts from a list. -/
def texts? (reader : SettingReader) : Data → Option (List String)
  | .list items => items.mapM reader.text?
  | _ => none

/-- A layout by its name, which may also be the only key of a map. -/
def layoutOfData? (reader : SettingReader) : Data → Option JsonLayout
  | .text name => reader.layout? name
  | .map [(name, data)] => if reader.ignoresSurplus || data.isNull then reader.layout? name else none
  | _ => none

/-- The types of the kinds. -/
def typeNames? (reader : SettingReader) (data : Data) : Option TypeNames := do
  let default : TypeNames := {}
  let fields ← reader.section? ["string", "integer", "decimal", "boolean", "date", "uri"] data
  return {
    string := ← field? fields "string" default.string reader.text?
    integer := ← field? fields "integer" default.integer reader.text?
    decimal := ← field? fields "decimal" default.decimal reader.text?
    boolean := ← field? fields "boolean" default.boolean reader.text?
    date := ← field? fields "date" default.date reader.text?
    uri := ← field? fields "uri" default.uri reader.text? }

/-- A render profile. -/
def profile? (reader : SettingReader) (data : Data) : Option RenderProfile := do
  let default : RenderProfile := {}
  let fields ← reader.section? ["types", "derives", "keyword_escape"] data
  return {
    types := ← field? fields "types" default.types reader.typeNames?
    derives := ← field? fields "derives" default.derives reader.texts?
    keywordEscape := ← field? fields "keyword_escape" default.keywordEscape reader.text? }

/-- The search paths, and whether the built-in library is used. -/
def imports? (reader : SettingReader) (data : Data) : Option (List String × Bool) := do
  let fields ← reader.section? ["search_paths", "builtin_library"] data
  return (← field? fields "search_paths" ["."] reader.texts?,
    ← field? fields "builtin_library" true reader.bool?)

/-- The layout of JSON. -/
def output? (reader : SettingReader) (data : Data) : Option JsonLayout := do
  let fields ← reader.section? ["json"] data
  field? fields "json" .pretty reader.layoutOfData?

/-- Whether formats are checked. -/
def validation? (reader : SettingReader) (data : Data) : Option Bool := do
  let fields ← reader.section? ["validate_formats"] data
  field? fields "validate_formats" true reader.bool?

/-- Settings. -/
def settings? (reader : SettingReader) (data : Data) : Option Settings := do
  let fields ← reader.section? ["imports", "output", "validation", "codegen"] data
  let (searchPaths, builtinLibrary) ← field? fields "imports" (["."], true) reader.imports?
  return {
    searchPaths := searchPaths
    builtinLibrary := builtinLibrary
    jsonLayout := ← field? fields "output" .pretty reader.output?
    validateFormats := ← field? fields "validation" true reader.validation?
    profile := ← field? fields "codegen" {} reader.profile? }

end SettingReader

end ClassSchema
