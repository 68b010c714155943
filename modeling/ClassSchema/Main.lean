import ClassSchema.CommandLine.Inputs
import ClassSchema.CommandLine.Run

/-! # The program

The files that a run may read are gathered, the run is computed, and what it says and writes is carried out.
-/

namespace ClassSchema.Program

/-- The text of a file, if it can be read. -/
def fileText? (path : String) : IO (Option String) := do
  match ← (IO.FS.readFile path).toBaseIO with
  | .ok text => return some text
  | .error _ => return none

/-- The variables of the environment that hold settings. -/
def environment : IO (List (String × String)) := do
  let found ← Settings.variableNames.mapM fun name => do
    return (← IO.getEnv name).map (name, ·)
  return found.filterMap id

/-- The files at which a run looks. `asked` are the paths that were tried. -/
partial def gather (environment : List (String × String)) (invocation : Invocation) (asked : List String)
    (tree : FileTree) : IO FileTree := do
  match (Run.inputPaths tree environment invocation).filter (!asked.contains ·) with
  | [] => return tree
  | paths =>
    let found ← paths.mapM fun path => do
      return (← fileText? path).map (path, ·)
    gather environment invocation (asked ++ paths) ⟨Table.ofPairs (tree.files ++ found.filterMap id)⟩

/-- The files with the output file among them, so far empty if it is new. -/
def withOutput (arguments : List String) (tree : FileTree) : FileTree :=
  match (Arguments.parse arguments).toOption.bind Invocation.output? with
  | some path => if tree.isFile path then tree else ⟨tree.files.set path ""⟩
  | none => tree

/-- The files without the output file. -/
def withoutOutput (arguments : List String) (tree : FileTree) : FileTree :=
  match (Arguments.parse arguments).toOption.bind Invocation.output? with
  | some path => ⟨tree.files.filter (·.1 ≠ path)⟩
  | none => tree

/-- The files that a run reads. -/
def inputs (environment : List (String × String)) (arguments : List String) : IO FileTree :=
  match Arguments.parse arguments with
  | .error _ => return ⟨[]⟩
  | .ok invocation => gather environment invocation [] ⟨[]⟩

/-- Write the files that differ from what they were. -/
def writeChanges (before after : FileTree) : IO Unit := do
  for (path, text) in after.files do
    if before.files.get? path ≠ some text then IO.FS.writeFile path text

/-- Say what a run says. -/
def say (outcome : RunOutcome) : IO UInt32 := do
  (← IO.getStdout).putStr outcome.stdout
  (← IO.getStderr).putStr outcome.stderr
  return outcome.exitCode.toUInt32

end ClassSchema.Program

open ClassSchema in
/-- Run with the arguments of the command line. An output file that cannot be written is taken to be out of
reach for the run. -/
def main (arguments : List String) : IO UInt32 := do
  let environment ← Program.environment
  let read ← Program.inputs environment arguments
  let tree := Program.withOutput arguments read
  let outcome := run tree environment arguments
  match ← (Program.writeChanges tree outcome.tree).toBaseIO with
  | .ok _ => Program.say outcome
  | .error _ => Program.say (run (Program.withoutOutput arguments read) environment arguments)
