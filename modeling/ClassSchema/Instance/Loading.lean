import ClassSchema.Format
import ClassSchema.Instance.BlockText
import ClassSchema.Json.Reader
import ClassSchema.Yaml.Untyped

/-! # Loading instances

JSON text is read as untyped data and constructed in typed mode. Block text is read along the field tables:
every scalar of a declared attribute is taken as its text, whatever YAML would make of it, so that no
digit is lost, and the result is constructed in lenient mode.
-/

namespace ClassSchema

/-- Why a text holds no instance. -/
inductive LoadError where
  | malformed (format : Format)
  /-- The text is JSON, but no object. -/
  | notAnObject (typeName : String)
  | duplicateAttribute (name : String)
  | unknownClass (name : String)
  | construction (error : ConstructionError)
deriving DecidableEq, Repr

/-- What a malformed text is called. -/
def Format.title : Format → String
  | .json => "JSON"
  | .block => "block"

/-- The wording of a load error. -/
def LoadError.message : LoadError → String
  | .malformed format => s!"malformed {format.title} input"
  | .notAnObject typeName => s!"malformed JSON input: top level must be an object, found {typeName}"
  | .duplicateAttribute name => s!"malformed block input: duplicate attribute '{name}'"
  | .unknownClass name => s!"unknown class '{name}'"
  | .construction error => error.message

/-- Why a block text gives no data for a class. -/
inductive BlockError where
  /-- The text is no YAML, or its nodes do not have the shapes of the attributes. -/
  | malformed
  | duplicateAttribute (name : String)
  /-- An attribute has the range of a class that is not there. -/
  | undefinedClass (name : String)
deriving DecidableEq, Repr

namespace BlockError

/-- The wording of an error, unless it is left to whatever reads YAML. -/
def detail? : BlockError → Option String
  | .malformed => none
  | .duplicateAttribute name => some s!"duplicate attribute '{name}'"
  | .undefinedClass name => some s!"class '{name}' is not defined"

/-- The error as one of loading. -/
def toLoadError : BlockError → LoadError
  | .malformed => .malformed .block
  | .duplicateAttribute name => .duplicateAttribute name
  | .undefinedClass _ => .malformed .block

end BlockError

namespace ObjectModel

open Yaml (Node)

/-- A value that is there, or the fault of a malformed block text. -/
def orMalformed {α : Type} : Option α → Except BlockError α
  | some value => .ok value
  | none => .error .malformed

/-- The data of a node for a range, which must be one of instances; `read` reads the entries for the
class. -/
def mappingData (model : ObjectModel) (range : Range)
    (read : ClassModel → Except BlockError (Table Data)) : Except BlockError Data :=
  match range with
  | .scalar _ => .error .malformed
  | .instanceOf className =>
    match model.class? className with
    | none => .error (.undefinedClass className)
    | some classModel => (read classModel).map .map

/-- Nothing, provided that a list is empty. -/
def requireEmpty {α : Type} (items? : Option (List α)) : Except BlockError (List Data) :=
  match items? with
  | some [] => .ok []
  | _ => .error .malformed

/-- The data of a scalar for a range: its text, or an empty map where an instance is expected and
nothing is written. -/
def scalarData (model : ObjectModel) (range : Range) (node : Node) : Except BlockError Data :=
  match range with
  | .scalar _ => (orMalformed node.text?).map .text
  | .instanceOf _ => model.mappingData range fun _ => (requireEmpty node.entries?).map fun _ => []

/-- The data of a scalar for an attribute, which may be absent; where several values are expected and
nothing is written, the list is empty. -/
def fieldScalarData (model : ObjectModel) (field : Field) (node : Node) : Except BlockError Data :=
  match node.isAbsent? with
  | none => .error .malformed
  | some true => .ok .null
  | some false =>
    if field.multivalued then (requireEmpty node.items?).map .list
    else model.scalarData field.range node

mutual

/-- The data of an element of a range. -/
def readElement (model : ObjectModel) (range : Range) : Node → Except BlockError Data
  | .scalar tag style text => model.scalarData range (.scalar tag style text)
  | .mapping _ entries => model.mappingData range fun classModel => readEntries model classModel [] entries
  | .sequence _ _ => model.mappingData range fun _ => .error .malformed
  | .broken => .error .malformed

/-- The data of elements of a range. -/
def readElements (model : ObjectModel) (range : Range) : List Node → Except BlockError (List Data)
  | [] => .ok []
  | node :: rest => do
    let element ← readElement model range node
    let rest ← readElements model range rest
    return element :: rest

/-- The data of an attribute. -/
def readAttribute (model : ObjectModel) (field : Field) : Node → Except BlockError Data
  | .scalar tag style text => model.fieldScalarData field (.scalar tag style text)
  | .sequence _ items =>
    if field.multivalued then (readElements model field.range items).map .list
    else model.mappingData field.range fun _ => .error .malformed
  | .mapping _ entries =>
    if field.multivalued then .error .malformed
    else model.mappingData field.range fun classModel => readEntries model classModel [] entries
  | .broken => .error .malformed

/-- The data of a class's attributes, behind those already read. -/
def readEntries (model : ObjectModel) (classModel : ClassModel) (table : Table Data) :
    List (Node × Node) → Except BlockError (Table Data)
  | [] => .ok table
  | (key, node) :: rest => do
    let key ← orMalformed key.text?
    if table.has key then .error (.duplicateAttribute key)
    else
      let value ←
        match classModel.field? key with
        | some field => readAttribute model field node
        | none => orMalformed (node.toData? .undeclared)
      readEntries model classModel (table ++ [(key, value)]) rest

end

/-- The untyped data for a class in a block text. -/
def readBlock (model : ObjectModel) (classModel : ClassModel) (text : String) :
    Except BlockError (Table Data) := do
  let source := Yaml.Source.ofText text
  let entries ← orMalformed source.root.entries?
  let table ← model.readEntries classModel [] entries
  if source.isClean then return table else .error .malformed

/-- The instance of a class that JSON data spells, which must be an object. -/
def loadData (model : ObjectModel) (classModel : ClassModel) : Data → Except LoadError Instance
  | .map entries => (model.constructClass .typed classModel entries).mapError .construction
  | data => .error (.notAnObject data.typeName)

/-- The instance of a class that a JSON text holds. -/
def loadJson (model : ObjectModel) (className text : String) : Except LoadError Instance :=
  match model.class? className with
  | none => .error (.unknownClass className)
  | some classModel =>
    match Json.read? text with
    | none => .error (.malformed .json)
    | some data => model.loadData classModel data

/-- The instance of a class that a block text holds. -/
def loadBlock (model : ObjectModel) (className text : String) : Except LoadError Instance :=
  match model.class? className with
  | none => .error (.unknownClass className)
  | some classModel => do
    let entries ← (model.readBlock classModel text).mapError BlockError.toLoadError
    (model.constructClass .lenient classModel entries).mapError .construction

/-- The instance of a class that a text holds in a format. -/
def load (model : ObjectModel) (format : Format) (className text : String) :
    Except LoadError Instance :=
  match format with
  | .json => model.loadJson className text
  | .block => model.loadBlock className text

end ObjectModel

/-- The untyped data of a text in a format. -/
def Format.read? (format : Format) (text : String) : Option Data :=
  match format with
  | .json => Json.read? text
  | .block => Yaml.read? text

/-- The instance as text in a format; JSON is indented. -/
def Instance.toText (instanceValue : Instance) : Format → Except EncodingError String
  | .json => instanceValue.toIndentedJsonText
  | .block => instanceValue.toBlockText

end ClassSchema
