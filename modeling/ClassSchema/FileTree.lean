import ClassSchema.Import.Source
import ClassSchema.Table
import ClassSchema.Text.Parts

/-! # File trees

The files that a run may read, by path. A path is walked from the root of the tree, part by part: `.` stays,
`..` goes up, and every other part must be a directory, or a file if it is the last one. A path under which
a file is listed as it stands needs no walking.
-/

namespace ClassSchema

/-- Files by path. -/
structure FileTree where
  files : Table String
deriving DecidableEq, Repr

/-- Why a path cannot be read or written. -/
inductive PathError where
  | notFound
  | notDirectory
  | isDirectory
deriving DecidableEq, Repr

/-- The wording of a path error. -/
def PathError.message : PathError → String
  | .notFound => "No such file or directory (os error 2)"
  | .notDirectory => "Not a directory (os error 20)"
  | .isDirectory => "Is a directory (os error 21)"

/-- The parts of a path between slashes. -/
def splitPath (path : String) : List String :=
  (Text.splitParts '/' path.toList).map String.ofList

/-- Whether a path does not depend on where one is. -/
def isAbsolutePath (path : String) : Bool :=
  path.toList.head? = some '/'

/-- A path as seen from a base. -/
def joinPaths (base path : String) : String :=
  if isAbsolutePath path || base.isEmpty then path
  else if base.toList.getLast? = some '/' then base ++ path
  else base ++ "/" ++ path

/-- Characters without slashes at their end, unless there is nothing else. -/
def dropTrailingSlashes (cs : List Char) : List Char :=
  match (cs.reverse.dropWhile (· = '/')).reverse with
  | [] => cs.take 1
  | rest => rest

/-- The directory of a path; empty for a path of one part. -/
def parentPath (path : String) : String :=
  let above := ((dropTrailingSlashes path.toList).reverse.dropWhile (· ≠ '/')).reverse
  String.ofList (dropTrailingSlashes above)

/-- The last part of a path. -/
def fileName (path : String) : String :=
  String.ofList ((dropTrailingSlashes path.toList).reverse.takeWhile (· ≠ '/')).reverse

/-- What follows the last point in the name of a path, unless nothing is before it. -/
def fileExtension? (path : String) : Option String :=
  let reversed := (fileName path).toList.reverse
  match reversed.dropWhile (· ≠ '.') with
  | _ :: _ :: _ =>
    if fileName path = ".." then none else some (String.ofList (reversed.takeWhile (· ≠ '.')).reverse)
  | _ => none

namespace FileTree

/-- The path of parts from the root. -/
def pathOf (parts : List String) : String :=
  "/".intercalate parts

/-- The tree of files by their paths. -/
def ofFiles (files : List (String × String)) : FileTree where
  files := Table.ofPairs (files.map fun (path, text) =>
    (pathOf ((splitPath path).filter fun part => part ≠ "" && part ≠ "."), text))

/-- Whether parts lead to a directory, which the root always is. -/
def isDirectory (tree : FileTree) (parts : List String) : Bool :=
  parts.isEmpty || tree.files.keys.any fun path => startsWith (pathOf parts ++ "/").toList path.toList

/-- Walk on from a directory. -/
def walkFrom (tree : FileTree) (current : List String) : List String → Except PathError (List String)
  | [] => .ok current
  | part :: rest =>
    if part = "" ∨ part = "." then walkFrom tree current rest
    else if part = ".." then
      if current.isEmpty then .error .notFound else walkFrom tree current.dropLast rest
    else if tree.isDirectory (current ++ [part]) then walkFrom tree (current ++ [part]) rest
    else if tree.files.has (pathOf (current ++ [part])) then
      if rest.isEmpty then .ok (current ++ [part]) else .error .notDirectory
    else .error .notFound

/-- Where a path leads. -/
def locate (tree : FileTree) (path : String) : Except PathError String :=
  if tree.files.has path then .ok path
  else if isAbsolutePath path || path.isEmpty then .error .notFound
  else (tree.walkFrom [] (splitPath path)).map pathOf

/-- The text of the file at a path. -/
def read (tree : FileTree) (path : String) : Except PathError String := do
  match tree.files.get? (← tree.locate path) with
  | some text => return text
  | none => .error .isDirectory

/-- The text of the file at a path, if there is one. -/
def text? (tree : FileTree) (path : String) : Option String :=
  (tree.read path).toOption

/-- Whether a file is at a path. -/
def isFile (tree : FileTree) (path : String) : Bool :=
  (tree.text? path).isSome

/-- The tree with a text at a path; the directory of a new file must be there. -/
def write (tree : FileTree) (path text : String) : Except PathError FileTree :=
  match tree.locate path with
  | .ok place => if tree.files.has place then .ok ⟨tree.files.set place text⟩ else .error .isDirectory
  | .error .notFound => do
    let parts := splitPath path
    let directory ← if isAbsolutePath path then .error .notFound else tree.walkFrom [] parts.dropLast
    let name := parts.getLastD ""
    if name = ".." then .error .notFound
    else if name = "" ∨ name = "." then .error .isDirectory
    else if tree.isDirectory directory then .ok ⟨tree.files.set (pathOf (directory ++ [name])) text⟩
    else .error .notDirectory
  | .error error => .error error

/-- What is read is among the texts of the tree, as it must be of a source of imports. -/
theorem mem_of_text? {tree : FileTree} {path text : String} (read : tree.text? path = some text) :
    text ∈ tree.files.values := by
  unfold text? FileTree.read at read
  cases place : tree.locate path with
  | error error => simp [place, bind, Except.bind, Except.toOption] at read
  | ok place' =>
    simp only [place, bind, Except.bind] at read
    cases found : tree.files.get? place' with
    | none => simp [found, Except.toOption] at read
    | some other =>
      simp only [found, pure, Except.pure, Except.toOption, Option.some.injEq] at read
      exact read ▸ Table.mem_values_of_get? found

end FileTree

/-- The names of the files that an import identifier may stand for: what follows its first colon, with an
extension if it has none. -/
def importFileNames (identifier : String) : List String :=
  let localName :=
    if isFullIdentifier identifier then identifier
    else ((splitAtColon? identifier).map Prod.snd).getD identifier
  let ends (ending : String) : Bool := ending.toList.isSuffixOf localName.toList
  if ends ".yaml" || ends ".yml" then [localName] else [localName ++ ".yaml", localName ++ ".yml"]

/-- The paths at which an import is looked for: in each directory, every name. -/
def importPaths (directories : List String) (identifier : String) : List String :=
  if isFullIdentifier identifier then []
  else directories.flatMap fun directory => (importFileNames identifier).map (joinPaths directory)

/-- The source of imports that searches directories of a tree. -/
def ImportSource.ofTree (tree : FileTree) (directories : List String) : ImportSource where
  load identifier := .ok ((importPaths directories identifier).findSome? tree.text?)
  texts := tree.files.values
  mem_texts := by
    intro identifier text loaded
    obtain ⟨path, _, read⟩ := List.exists_of_findSome?_eq_some (Except.ok.inj loaded)
    exact FileTree.mem_of_text? read

end ClassSchema
