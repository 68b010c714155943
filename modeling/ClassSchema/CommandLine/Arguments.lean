import ClassSchema.Document.Namespace
import ClassSchema.Format
import ClassSchema.Table

/-! # Arguments

The arguments of a run: options, then a command with options of its own and perhaps a data file. Every
option takes a value, which stands in the next argument, behind an equals sign, or behind a single letter. An
option is given once; the output file may be given before the command and again behind it.
-/

namespace ClassSchema

/-- How a graph is written. -/
inductive GraphFormat where
  | turtle
  | dot
deriving DecidableEq, Repr

/-- What a run does. -/
inductive Command where
  | structs
  | graph (format : GraphFormat)
  | jsonSchema (className? : Option String)
  | validate (data className : String) (format? : Option Format)
  | convert (data className : String) (target : Format) (format? : Option Format)
deriving DecidableEq, Repr

/-- The arguments of a run. -/
structure Invocation where
  schema : String
  settings? : Option String
  output? : Option String
  command : Command
deriving DecidableEq, Repr

/-- Why there is nothing to run. -/
inductive ArgumentStop where
  /-- Help is asked for, perhaps on one command. -/
  | help (command? : Option String)
  | invalid
deriving DecidableEq, Repr

/-- An option, with the values that it takes. -/
structure OptionSpec where
  long : String
  short? : Option Char
  accepts : String → Bool

namespace Arguments

/-- Whether a text may be a path. -/
def isPath (value : String) : Bool :=
  !value.isEmpty

/-- Whether a text names a format. -/
def isFormat (value : String) : Bool :=
  (Format.ofName? value).isSome

/-- The graph format of a name. -/
def graphFormat? (name : String) : Option GraphFormat :=
  if name = "turtle" then some .turtle
  else if name = "dot" then some .dot
  else none

/-- The option for the output file. -/
def outputOption : OptionSpec := ⟨"output", some 'o', isPath⟩

/-- The option for the class. -/
def classOption : OptionSpec := ⟨"class", none, fun _ => true⟩

/-- The option for the format of the data file. -/
def formatOption : OptionSpec := ⟨"format", some 'f', isFormat⟩

/-- The options before the command. -/
def globalOptions : List OptionSpec :=
  [⟨"schema", some 's', isPath⟩, ⟨"config", some 'c', isPath⟩, outputOption]

/-- The options of each command. -/
def commandOptions : List (String × List OptionSpec) :=
  [("rust", [outputOption]),
   ("graph", [⟨"format", some 'f', fun value => (graphFormat? value).isSome⟩, outputOption]),
   ("json-schema", [classOption, outputOption]),
   ("validate", [classOption, formatOption, outputOption]),
   ("convert", [classOption, ⟨"to", none, isFormat⟩, formatOption, outputOption])]

/-- What is read of arguments: the values of options, and the arguments that are none. -/
structure Reading where
  values : Table String := []
  others : List String := []

/-- Give a value to an option. -/
def Reading.give (reading : Reading) (spec : OptionSpec) (value : String) : Except ArgumentStop Reading :=
  if reading.values.has spec.long || !spec.accepts value then .error .invalid
  else .ok { reading with values := reading.values.set spec.long value }

/-- Whether an argument cannot be the value of an option before it. -/
def isMarked (argument : String) : Bool :=
  startsWith ['-'] argument.toList && argument ≠ "-"

/-- What an argument is. -/
inductive Shape where
  | other
  | help
  /-- All that follows is no option. -/
  | separator
  /-- An option, perhaps with its value. -/
  | option (spec : OptionSpec) (value? : Option String)
  | unknown

/-- The shape of an argument behind two hyphens. -/
def longShape (specs : List OptionSpec) (cs : List Char) : Shape :=
  let name := String.ofList (cs.takeWhile (· ≠ '='))
  let value? :=
    match cs.dropWhile (· ≠ '=') with
    | [] => none
    | _ :: rest => some (String.ofList rest)
  match specs.find? fun spec => spec.long = name with
  | some spec => .option spec value?
  | none => if name = "help" ∧ value?.isNone then .help else .unknown

/-- The shape of an argument behind a hyphen. -/
def shortShape (specs : List OptionSpec) (letter : Char) (cs : List Char) : Shape :=
  let value? :=
    match cs with
    | [] => none
    | '=' :: rest => some (String.ofList rest)
    | rest => some (String.ofList rest)
  match specs.find? fun spec => spec.short? = some letter with
  | some spec => .option spec value?
  | none => if letter = 'h' then .help else .unknown

/-- The shape of an argument. -/
def shape (specs : List OptionSpec) (argument : String) : Shape :=
  match argument.toList with
  | ['-', '-'] => .separator
  | '-' :: '-' :: rest => longShape specs rest
  | '-' :: letter :: rest => shortShape specs letter rest
  | _ => .other

/-- Read arguments behind those already read. `command?` is the command that they belong to; before it, the
first argument that is no option ends the reading, and what follows is left. -/
def readFrom (specs : List OptionSpec) (command? : Option String) (reading : Reading) :
    List String → Except ArgumentStop (Reading × List String)
  | [] => .ok (reading, [])
  | argument :: rest =>
    match shape specs argument with
    | .help => .error (.help command?)
    | .unknown => .error .invalid
    | .separator =>
      if command?.isNone then .error .invalid
      else .ok ({ reading with others := reading.others ++ rest }, [])
    | .other =>
      if command?.isNone then .ok (reading, argument :: rest)
      else readFrom specs command? { reading with others := reading.others ++ [argument] } rest
    | .option spec (some value) =>
      match reading.give spec value with
      | .ok reading => readFrom specs command? reading rest
      | .error stop => .error stop
    | .option spec none =>
      match rest with
      | value :: rest =>
        if isMarked value then .error .invalid
        else
          match reading.give spec value with
          | .ok reading => readFrom specs command? reading rest
          | .error stop => .error stop
      | [] => .error .invalid

/-- What must be there. -/
def require {α : Type} : Option α → Except ArgumentStop α
  | some value => .ok value
  | none => .error .invalid

/-- The only argument that is no option. -/
def dataFile (reading : Reading) : Except ArgumentStop String :=
  match reading.others with
  | [path] => if isPath path then .ok path else .error .invalid
  | _ => .error .invalid

/-- The command of a name with what is read of its arguments. -/
def command (name : String) (reading : Reading) : Except ArgumentStop Command := do
  let class? := reading.values.get? "class"
  let format? := (reading.values.get? "format").bind Format.ofName?
  if name = "validate" then
    return .validate (← dataFile reading) (← require class?) format?
  else if name = "convert" then
    let target ← require ((reading.values.get? "to").bind Format.ofName?)
    return .convert (← dataFile reading) (← require class?) target format?
  else if !reading.others.isEmpty then .error .invalid
  else if name = "graph" then
    return .graph (((reading.values.get? "format").bind graphFormat?).getD .turtle)
  else if name = "json-schema" then return .jsonSchema class?
  else return .structs

/-- Help on the command that arguments name, if they name one. -/
def helpOn : List String → ArgumentStop
  | [] => .help none
  | name :: _ =>
    if (commandOptions.lookup name).isSome then .help (some name)
    else if name = "help" then .help none
    else .invalid

/-- The run that arguments ask for. -/
def parse (arguments : List String) : Except ArgumentStop Invocation := do
  let (globals, rest) ← readFrom globalOptions none {} arguments
  match rest with
  | [] => .error .invalid
  | name :: rest =>
    if name = "help" then .error (helpOn rest)
    else
      let specs ← require (commandOptions.lookup name)
      let (reading, _) ← readFrom specs (some name) {} rest
      let command ← command name reading
      return {
        schema := ← require (globals.values.get? "schema")
        settings? := globals.values.get? "config"
        output? := reading.values.get? "output" <|> globals.values.get? "output"
        command := command }

end Arguments

end ClassSchema
