import ClassSchema.Document.Namespace
import ClassSchema.FileTree
import ClassSchema.Number.Word
import ClassSchema.Settings.Decoding
import ClassSchema.Toml.Reader

/-! # Where settings come from

Settings are merged from files and from the environment, later sources over earlier ones: the files at a few
places if they are there, a file that the user names, and environment variables. Keys are compared without
regard to case, tables are merged entry by entry, and a key of the outermost table may be a path.
-/

namespace ClassSchema

open SettingReader (lowerCase)

/-- Why there are no settings. -/
inductive SettingsError where
  /-- The file that the user names is not there. -/
  | missingFile (path : String)
  | unreadableFile (path : String)
  /-- A value does not have the type that it should have. -/
  | wrongValue
deriving DecidableEq, Repr

/-- The wording of a settings error. -/
def SettingsError.message : SettingsError → String
  | .missingFile path => s!"configuration file \"{path}\" not found"
  | .unreadableFile path => s!"cannot read the settings in {path}"
  | .wrongValue => "invalid settings"

namespace Settings

mutual

/-- Give data to a key; a table is merged into the one that is there. -/
def mergeEntry (table : Table Data) (key : String) : Data → Table Data
  | .map entries =>
    match table.get? key with
    | some (.map inner) => table.set key (.map (mergeEntries inner entries))
    | some _ => if entries.isEmpty then table else table.set key (.map (mergeEntries [] entries))
    | none => table.set key (.map (mergeEntries [] entries))
  | data => table.set key data

/-- Give data to keys, one after the other. -/
def mergeEntries (table : Table Data) : List (String × Data) → Table Data
  | [] => table
  | (key, data) :: rest => mergeEntries (mergeEntry table (lowerCase key) data) rest

end

/-- Whether characters are a step of a path. -/
def isPathStep (cs : List Char) : Bool :=
  !cs.isEmpty && cs.all fun c => c.isAlphanum || c == ' ' || c == '_' || c == '-'

/-- The path that a key stands for: its parts between points, or the key itself where a part is no step. -/
def keyPath (key : String) : String × List String :=
  let parts := Text.splitParts '.' key.toList
  match parts with
  | first :: rest =>
    if parts.all isPathStep then (String.ofList first, rest.map String.ofList) else (key, [])
  | [] => (key, [])

/-- Data at the end of a path. -/
def nest : List String → Data → Data
  | [], data => data
  | step :: rest, data => .map [(step, nest rest data)]

/-- Merge a source, whose keys may be paths. -/
def mergeSource (table : Table Data) (source : Table Data) : Table Data :=
  source.foldl (fun table (key, data) =>
    let (first, rest) := keyPath key
    mergeEntry table (lowerCase first) (nest rest data)) table

/-- What the names of variables start with that hold settings, in small letters. -/
def variableStart : String := "schemac__"

/-- The characters with a point for each separator of two underscores. -/
def dotSeparators : List Char → List Char
  | '_' :: '_' :: rest => '.' :: dotSeparators rest
  | c :: rest => c :: dotSeparators rest
  | [] => []

/-- The integer of 64 bits that a text spells. -/
def wordText? (text : String) : Option Int :=
  let (negative, digits) := splitSign text.toList
  match digitsInBase? 10 digits with
  | some value =>
    let signed : Int := if negative then -value else value
    if isWord signed then some signed else none
  | none => none

/-- The double that a text spells; infinities and the number that is none have names. -/
def doubleText? (text : String) : Option Binary64 :=
  let (negative, name) := splitSign (lowerCase text).toList
  if name = "inf".toList ∨ name = "infinity".toList then some (.infinite negative)
  else if name = "nan".toList then some .notANumber
  else Binary64.ofLiteral? text

/-- The data that the text of a variable stands for. -/
def variableData (text : String) : Data :=
  if lowerCase text = "true" then .bool true
  else if lowerCase text = "false" then .bool false
  else
    match wordText? text, doubleText? text with
    | some value, _ => .number (toString value)
    | none, some value => .number value.positionalText
    | none, none => .text text

/-- The settings that the environment holds. -/
def ofEnvironment (environment : List (String × String)) : Table Data :=
  Table.ofPairs (environment.filterMap fun (name, text) =>
    let name := (lowerCase name).toList
    if startsWith variableStart.toList name then
      some (String.ofList (dotSeparators (name.drop variableStart.length)), variableData text)
    else none)

/-- The places where a settings file is looked for. -/
def locations : List String := ["schemac.toml", ".schemac.toml", "config/schemac.toml"]

/-- The path of the file that a name stands for, which may lack its extension. -/
def filePath? (tree : FileTree) (name : String) : Option String :=
  if tree.isFile name then some name
  else if tree.isFile (name ++ ".toml") then some (name ++ ".toml")
  else none

/-- The settings in a file, if it is there. -/
def ofFile? (tree : FileTree) (name : String) : Except SettingsError (Option (Table Data)) :=
  match filePath? tree name with
  | none => .ok none
  | some path =>
    if fileExtension? path ≠ some "toml" then .error (.unreadableFile path)
    else
      match (tree.text? path).bind Toml.read? with
      | some table => .ok (some table)
      | none => .error (.unreadableFile path)

/-- Merge the file of a name, if it is there. -/
def mergeFile (tree : FileTree) (table : Table Data) (name : String) :
    Except SettingsError (Table Data) := do
  match ← ofFile? tree name with
  | some source => return mergeSource table source
  | none => return table

/-- Merge the file that the user names. -/
def mergeNamed (tree : FileTree) (table : Table Data) : Option String → Except SettingsError (Table Data)
  | none => .ok table
  | some name => do
    match ← ofFile? tree name with
    | some source => return mergeSource table source
    | none => .error (.missingFile name)

/-- The settings from the files of a tree, perhaps one that the user names, and from the environment. -/
def load (tree : FileTree) (named? : Option String) (environment : List (String × String)) :
    Except SettingsError Settings := do
  let table ← locations.foldlM (mergeFile tree) []
  let table ← mergeNamed tree table named?
  match SettingReader.loose.settings? (.map (mergeSource table (ofEnvironment environment))) with
  | some settings => return settings
  | none => .error .wrongValue

end Settings

end ClassSchema
