import ClassSchema.Settings
import ClassSchema.Toml.Quoted

/-! # Settings as text

Settings are written as TOML, section by section, with every value. A list of two items or more takes a line
for each.
-/

namespace ClassSchema

namespace Settings

/-- A text between quotes. -/
def quotedLine (key text : String) : String :=
  key ++ " = " ++ Toml.quote text ++ "\n"

/-- A truth value. -/
def boolLine (key : String) (value : Bool) : String :=
  key ++ " = " ++ (if value then "true" else "false") ++ "\n"

/-- A list of texts. -/
def listLines (key : String) : List String → String
  | [] => key ++ " = []\n"
  | [item] => key ++ " = [" ++ Toml.quote item ++ "]\n"
  | items => key ++ " = [\n" ++ String.join (items.map fun item => "    " ++ Toml.quote item ++ ",\n") ++ "]\n"

/-- The settings as TOML. -/
def text (settings : Settings) : String :=
  let profile := settings.profile
  let types := profile.types
  "[imports]\n" ++ listLines "search_paths" settings.searchPaths ++
    boolLine "builtin_library" settings.builtinLibrary ++
    "\n[output]\n" ++ quotedLine "json" settings.jsonLayout.name ++
    "\n[validation]\n" ++ boolLine "validate_formats" settings.validateFormats ++
    "\n[codegen]\n" ++ listLines "derives" profile.derives ++
    quotedLine "keyword_escape" profile.keywordEscape ++
    "\n[codegen.types]\n" ++ quotedLine "string" types.string ++ quotedLine "integer" types.integer ++
    quotedLine "decimal" types.decimal ++ quotedLine "boolean" types.boolean ++
    quotedLine "date" types.date ++ quotedLine "uri" types.uri

end Settings

end ClassSchema
