import ClassSchema.CommandLine.Arguments
import ClassSchema.Compilation.File
import ClassSchema.Settings.Sources

/-! # Inputs of a run

The paths at which a run may look for files, as far as the files that are known tell: more of them become
known with every schema that is read, since it may import others.
-/

namespace ClassSchema

namespace Settings

/-- The paths at which settings are looked for. -/
def inputPaths (named? : Option String) : List String :=
  (locations ++ named?.toList).flatMap fun name => [name, name ++ ".toml"]

/-- The names of the variables that hold settings. -/
def variableNames : List String :=
  ["IMPORTS__BUILTIN_LIBRARY", "OUTPUT__JSON", "VALIDATION__VALIDATE_FORMATS", "CODEGEN__KEYWORD_ESCAPE",
    "CODEGEN__TYPES__STRING", "CODEGEN__TYPES__INTEGER", "CODEGEN__TYPES__DECIMAL",
    "CODEGEN__TYPES__BOOLEAN", "CODEGEN__TYPES__DATE", "CODEGEN__TYPES__URI",
    "IMPORTS__SEARCH_PATHS", "CODEGEN__DERIVES"].map ("SCHEMAC__" ++ ·)

end Settings

/-- The data file of a command. -/
def Command.data? : Command → Option String
  | .validate path _ _ => some path
  | .convert path _ _ _ => some path
  | _ => none

namespace Run

/-- The import identifiers in the files that are schemas. -/
def importIdentifiers (tree : FileTree) : List String :=
  tree.files.values.flatMap fun text => ((Document.parse text).toOption.map Document.imports).getD []

/-- The paths of the schemas that may be imported. -/
def schemaPaths (tree : FileTree) (environment : List (String × String)) (invocation : Invocation) :
    List String :=
  match Settings.load tree invocation.settings? environment with
  | .ok settings =>
    (importIdentifiers tree).flatMap
      (importPaths (settings.searchPathsFrom (parentPath invocation.schema)))
  | .error _ => []

/-- The paths at which a run may look for files. -/
def inputPaths (tree : FileTree) (environment : List (String × String)) (invocation : Invocation) :
    List String :=
  Settings.inputPaths invocation.settings? ++ [invocation.schema] ++ invocation.command.data?.toList ++
    schemaPaths tree environment invocation

end Run

end ClassSchema
