import ClassSchema.CommandLine.Arguments

/-! # Help

What is printed when help is asked for: a line on what is done, the usage, and the commands and options with
a word on each.
-/

namespace ClassSchema.Help

/-- Rows of two columns, the second one in line. -/
def rows (entries : List (String × String)) : String :=
  let width := entries.foldl (fun width (name, _) => max width name.length) 0
  String.join (entries.map fun (name, about) =>
    "  " ++ name ++ String.ofList (List.replicate (width - name.length) ' ') ++ "  " ++ about ++ "\n")

/-- The commands. -/
def commands : List (String × String) :=
  [("rust", "Render Rust structs for every class"), ("graph", "Render the semantic graph"),
   ("json-schema", "Render the JSON Schema validation document"),
   ("validate", "Validate a data document against one class"),
   ("convert", "Convert a data document between JSON and block (YAML) format")]

/-- The row for the output file. -/
def outputRow : String × String := ("-o, --output <OUTPUT>", "Write output here instead of stdout")

/-- The row for help. -/
def helpRow : String × String := ("-h, --help", "Print help")

/-- Help on the whole. -/
def general : String :=
  "Compile a declarative schema into object models, graph shapes and validators\n\n" ++
    "Usage: schemac [OPTIONS] --schema <SCHEMA> <COMMAND>\n\nCommands:\n" ++
    rows (commands ++ [("help", "Print this message or the help of the given subcommand(s)")]) ++
    "\nOptions:\n" ++
    rows [("-s, --schema <SCHEMA>", "Schema file to compile"),
      ("-c, --config <CONFIG>", "Extra configuration file (on top of schemac.toml and SCHEMAC__* variables)"),
      outputRow, helpRow]

/-- The usage of a command behind its name. -/
def usage (name : String) : String :=
  if name = "validate" then " [OPTIONS] --class <CLASS> <DATA>"
  else if name = "convert" then " [OPTIONS] --class <CLASS> --to <TO> <DATA>"
  else " [OPTIONS]"

/-- The options of a command, apart from those that all commands have. -/
def optionRows (name : String) : List (String × String) :=
  let dataFormat := ("-f, --format <FORMAT>", "Input format (guessed from the extension when omitted)")
  if name = "graph" then
    [("-f, --format <FORMAT>", "[default: turtle] [possible values: turtle, dot]")]
  else if name = "json-schema" then [("    --class <CLASS>", "Root the document at one class")]
  else if name = "validate" then [("    --class <CLASS>", ""), dataFormat]
  else if name = "convert" then [("    --class <CLASS>", ""), ("    --to <TO>", ""), ("-f, --format <FORMAT>", "")]
  else []

/-- Help on a command. -/
def onCommand (name : String) : String :=
  (commands.lookup name).getD "" ++ "\n\nUsage: schemac --schema <SCHEMA> " ++ name ++ usage name ++ "\n" ++
    (if name = "validate" ∨ name = "convert" then "\nArguments:\n  <DATA>  \n" else "") ++
    "\nOptions:\n" ++ rows (optionRows name ++ [outputRow, helpRow])

/-- Help on the whole or on a command. -/
def text : Option String → String
  | some name => onCommand name
  | none => general

end ClassSchema.Help
