import ClassSchema.Graph.Cycles
import ClassSchema.Instance.Model
import ClassSchema.Struct.Name
import ClassSchema.Struct.Profile

/-! # Struct source

The object model as Rust source: a struct for every class, with a field for every attribute. An optional
value is an `Option` and a multivalued one a `Vec`; what closes a cycle of classes is boxed.
-/

namespace ClassSchema

/-- Source with the number of structs in it. -/
structure StructSource where
  code : String
  typeCount : Nat
deriving DecidableEq, Repr

/-- The lines of a text behind what was read of the first one. A line ends at a line feed, with a carriage
return before it or not; nothing is a line behind the last one. -/
def linesFrom (current : List Char) : List Char → List (List Char)
  | [] => if current.isEmpty then [] else [current]
  | '\r' :: '\n' :: rest => current :: linesFrom [] rest
  | '\n' :: rest => current :: linesFrom [] rest
  | c :: rest => linesFrom (current ++ [c]) rest

/-- The lines of a text. -/
def textLines (text : String) : List String :=
  (linesFrom [] text.toList).map String.ofList

namespace Struct

/-- The lines of a doc comment. -/
def docLines (indentation text : String) : List String :=
  (textLines text).map fun line =>
    if line.isEmpty then indentation ++ "///" else indentation ++ "/// " ++ line

/-- The type of a single value. -/
def singleType (profile : RenderProfile) : Range → String
  | .scalar kind => profile.types.ofKind kind
  | .instanceOf className => pascalCase className

/-- The type of a field. -/
def fieldType (profile : RenderProfile) (boxed : Bool) (field : Field) : String :=
  let single := singleType profile field.range
  let single := if boxed then s!"Box<{single}>" else single
  if field.multivalued then s!"Vec<{single}>"
  else if field.required then single
  else s!"Option<{single}>"

/-- The name of a field. -/
def fieldName (profile : RenderProfile) (field : Field) : String :=
  profile.escapeKeyword (snakeCase field.name)

/-- The lines of a field. -/
def fieldLines (profile : RenderProfile) (boxed : Bool) (field : Field) : List String :=
  let name := fieldName profile field
  let type := fieldType profile boxed field
  (field.description?.toList.flatMap (docLines "    ")) ++ [s!"    pub {name}: {type},"]

/-- The lines of a struct. -/
def structLines (profile : RenderProfile) (boxed : List OwnedProperty) (model : ClassModel) : List String :=
  docLines "" (model.description?.getD model.name) ++
    (if profile.derives.isEmpty then [] else ["#[derive(" ++ ", ".intercalate profile.derives ++ ")]"]) ++
    ["pub struct " ++ pascalCase model.name ++ " \x7b"] ++
    model.fields.flatMap (fun field => fieldLines profile (boxed.contains ⟨model.name, field.name⟩) field) ++
    ["\x7d"]

/-- The lines in front of the structs. -/
def headerLines (schemaName : String) : List String :=
  ["//! Generated from schema \x60" ++ schemaName ++ "\x60 - DO NOT EDIT", "//!",
   "//! Regenerate with \x60schemac --schema <file> rust\x60.", ""]

/-- The source of an object model whose classes make a graph. -/
def render (profile : RenderProfile) (model : ObjectModel) (graph : SchemaGraph) : StructSource where
  code :=
    let boxed := graph.recursiveProperties
    String.join ((headerLines model.schemaName ++ model.classes.values.flatMap fun classModel =>
      "" :: structLines profile boxed classModel).map (· ++ "\n"))
  typeCount := model.classes.length

end Struct

end ClassSchema
