import ClassSchema.CommandLine.Arguments
import ClassSchema.CommandLine.Help
import ClassSchema.Compilation.File
import ClassSchema.Settings.Sources

/-! # Runs

What a run prints, writes and returns, from its arguments, the variables of the environment and the files
that it may read.
-/

namespace ClassSchema

/-- What comes of a run. -/
structure RunOutcome where
  exitCode : Nat
  stdout : String
  stderr : String
  /-- The files afterwards. -/
  tree : FileTree
deriving DecidableEq, Repr

/-- Why a run fails; each wording says what was at hand and then what was wrong. -/
inductive RunError where
  | settings (error : SettingsError)
  | compile (path : String) (error : CompileError)
  | noClass (name : String)
  | unknownFormat (path : String)
  | reading (path : String) (error : PathError)
  | writing (path : String) (error : PathError)
  | validating (path : String) (error : CheckError)
  | loading (path : String) (error : LoadError)
  | encoding (error : EncodingError)
deriving DecidableEq, Repr

/-- The wording of a check error. -/
def CheckError.message : CheckError → String
  | .malformed format => (LoadError.malformed format).message
  | .encoding error => error.message
  | .validation error => error.message

/-- The wording of a compile error with what is behind it. -/
def CompileError.chain (error : CompileError) : String :=
  match error with
  | .unreadable _ cause => s!"{error.message}: {cause.message}"
  | .schema _ => error.message

/-- The wording of a run's error. -/
def RunError.message : RunError → String
  | .settings error => s!"loading configuration: {error.message}"
  | .compile path error => s!"compiling {path}: {error.chain}"
  | .noClass name => s!"no class '{name}' in schema"
  | .unknownFormat path => s!"cannot tell the format of {path}; pass --format"
  | .reading path error => s!"reading {path}: {error.message}"
  | .writing path error => s!"writing {path}: {error.message}"
  | .validating path error => s!"validating {path}: {error.message}"
  | .loading path error => s!"loading {path}: {error.message}"
  | .encoding error => error.message

/-- The exit code of a run's error; a number without measure and an overflow stop a run in its tracks. -/
def RunError.exitCode : RunError → Nat
  | .validating _ (.validation .noMeasure) => 101
  | .encoding .overflow => 101
  | _ => 1

/-- A run that ends with an error, behind what was said before. -/
def RunOutcome.failure (tree : FileTree) (said : String) (error : RunError) : RunOutcome :=
  ⟨error.exitCode, "", said ++ s!"Error: {error.message}\n", tree⟩

namespace Run

/-- Write a text to the output file, or else print it with a line break at its end. -/
def emit (tree : FileTree) (output? : Option String) (said text : String) : RunOutcome :=
  match output? with
  | some path =>
    match tree.write path text with
    | .ok tree => ⟨0, "", said ++ s!"✅ Wrote {path}\n", tree⟩
    | .error error => .failure tree said (.writing path error)
  | none =>
    let ending := if text.toList.getLast? = some '\n' then "" else "\n"
    ⟨0, text ++ ending, said, tree⟩

/-- The text of a data file with its format, which its extension tells if none is given. -/
def readData (tree : FileTree) (path : String) (format? : Option Format) :
    Except RunError (String × Format) := do
  let format ←
    match format? <|> (fileExtension? path).bind Format.ofExtension? with
    | some format => .ok format
    | none => .error (.unknownFormat path)
  let text ← (tree.read path).mapError (RunError.reading path)
  return (text, format)

/-- The lines that a check prints. -/
def checkLines (path className : String) (check : DocumentCheck) : List String :=
  if check.passed then [s!"✅ {path} is a valid {className}"]
  else
    [s!"❌ {path} is not a valid {className}"] ++
      (check.report.violations.map fun violation => s!"   └─ {violation.text}") ++
      (check.loadError?.toList.map fun error => s!"   └─ does not load: {error.message}")

/-- Run a command with a compilation. -/
def command (compilation : Compilation) (tree : FileTree) (output? : Option String) :
    Command → Except RunError RunOutcome
  | .structs =>
    let source := compilation.structSource
    .ok (emit tree output? s!"Generated {source.typeCount} types\n" source.code)
  | .graph .turtle => .ok (emit tree output? "" compilation.graph.toTurtle)
  | .graph .dot => .ok (emit tree output? "" compilation.graph.toDot)
  | .jsonSchema none => .ok (emit tree output? "" compilation.jsonSchemaText)
  | .jsonSchema (some className) =>
    match compilation.validation.forClass? className with
    | some data => .ok (emit tree output? "" (Json.indented data))
    | none => .error (.noClass className)
  | .validate path className format? => do
    let (text, format) ← readData tree path format?
    let check ← (compilation.check format className text).mapError (RunError.validating path)
    let printed := String.join ((checkLines path className check).map (· ++ "\n"))
    return ⟨if check.passed then 0 else 1, printed, "", tree⟩
  | .convert path className target format? => do
    let (text, format) ← readData tree path format?
    let loaded ← (compilation.load format className text).mapError (RunError.loading path)
    let converted ← (compilation.dump loaded target).mapError RunError.encoding
    return emit tree output? "" converted

/-- Run what is asked for. -/
def invocation (tree : FileTree) (environment : List (String × String)) (invocation : Invocation) :
    Except RunError RunOutcome := do
  let settings ← (Settings.load tree invocation.settings? environment).mapError RunError.settings
  let compilation ← (Compilation.ofFile settings tree invocation.schema).mapError
    (RunError.compile invocation.schema)
  command compilation tree invocation.output? invocation.command

/-- What is said when the arguments are not understood. -/
def usageError : String :=
  "error: the arguments are not understood\n\nFor more information, try '--help'.\n"

end Run

/-- What comes of a run with arguments. -/
def run (tree : FileTree) (environment : List (String × String)) (arguments : List String) : RunOutcome :=
  match Arguments.parse arguments with
  | .error (.help command?) => ⟨0, Help.text command?, "", tree⟩
  | .error .invalid => ⟨2, "", Run.usageError, tree⟩
  | .ok invocation =>
    match Run.invocation tree environment invocation with
    | .ok outcome => outcome
    | .error error => .failure tree "" error

end ClassSchema
