import ClassSchema.Compilation
import ClassSchema.FileTree
import ClassSchema.Import.Library
import ClassSchema.Import.Resolution

/-! # Compiling files

A schema file is compiled with the imports that are found in the built-in library and in the search paths,
which are seen from the directory of the file.
-/

namespace ClassSchema

/-- Why a schema file cannot be compiled. -/
inductive CompileError where
  | unreadable (path : String) (error : PathError)
  | schema (error : SchemaError)
deriving DecidableEq, Repr

/-- The wording of a compile error. -/
def CompileError.message : CompileError → String
  | .unreadable path error => s!"cannot read {path}: {error.message}"
  | .schema error => error.message

namespace Settings

/-- The search paths as seen from a directory. -/
def searchPathsFrom (settings : Settings) (base : String) : List String :=
  settings.searchPaths.map (joinPaths base)

/-- The source of the imports of a schema in a directory. -/
def importSource (settings : Settings) (tree : FileTree) (base : String) : ImportSource :=
  let files := ImportSource.ofTree tree (settings.searchPathsFrom base)
  if settings.builtinLibrary then ImportSource.builtin.orElse files else files

end Settings

/-- The document of a schema in a directory, with its imports. -/
def Document.load (settings : Settings) (tree : FileTree) (base source : String) :
    Except SchemaError Document := do
  let document ← (Document.parse source).mapError SchemaError.syntaxError
  document.resolveImports (settings.importSource tree base)

/-- The document of a schema file, with its imports. -/
def Document.loadFile (settings : Settings) (tree : FileTree) (path : String) :
    Except CompileError Document := do
  let source ← (tree.read path).mapError (CompileError.unreadable path)
  (Document.load settings tree (parentPath path) source).mapError CompileError.schema

/-- The compilation of a schema file. -/
def Compilation.ofFile (settings : Settings) (tree : FileTree) (path : String) :
    Except CompileError Compilation := do
  let document ← Document.loadFile settings tree path
  (Compilation.ofDocument settings document).mapError CompileError.schema

end ClassSchema
