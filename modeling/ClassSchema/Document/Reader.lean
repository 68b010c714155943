import ClassSchema.Document
import ClassSchema.Error
import ClassSchema.Text.Blank
import ClassSchema.Yaml.Scalar
import ClassSchema.Yaml.Source

/-! # Reading documents

A document is the root mapping of a YAML text. The keys of a document, a type, a class and an attribute
are fixed and stand at most once; prefixes, types, classes and attributes are tables whose keys are
free but different. The first fault in the order of the text is reported, and only when there is none
are the names checked for being present.
-/

namespace ClassSchema.Document

open Yaml (Node)

/-- A result, or the fault that ended the reading. -/
abbrev Reading (α : Type) := Except SyntaxError α

/-- A value that is there, or the fault of an unreadable text. -/
def orUnreadable {α : Type} : Option α → Reading α
  | some value => .ok value
  | none => .error .unreadable

/-- The text of a scalar. -/
def readText (node : Node) : Reading String :=
  orUnreadable node.text?

/-- A truth value. -/
def readBool (node : Node) : Reading Bool :=
  orUnreadable node.bool?

/-- A value that may be absent. -/
def readOptional {α : Type} (read : Node → Reading α) (node : Node) : Reading (Option α) := do
  if ← orUnreadable node.isAbsent? then return none else some <$> read node

/-- A text that may be absent. -/
def readOptionalText (node : Node) : Reading (Option String) :=
  readOptional readText node

/-- A list of texts. -/
def readTexts (node : Node) : Reading (List String) := do
  (← orUnreadable node.items?).mapM readText

/-- Read entries with free keys one after the other behind the entries already read. -/
def readTableFrom {α : Type} (read : String → Node → Reading α) (table : Table α) :
    List (Node × Node) → Reading (Table α)
  | [] => .ok table
  | (key, value) :: rest => do
    let key ← readText key
    if table.has key then .error (.duplicateKey key)
    else readTableFrom read (table ++ [(key, ← read key value)]) rest

/-- A mapping with free keys that must be different. -/
def readTable {α : Type} (read : String → Node → Reading α) (node : Node) : Reading (Table α) := do
  readTableFrom read [] (← orUnreadable node.entries?)

/-- A table that may be absent, which then is empty. -/
def readOptionalTable {α : Type} (read : String → Node → Reading α) (node : Node) :
    Reading (Table α) := do
  return (← readOptional (readTable read) node).getD []

/-- Read entries with fixed keys one after the other, each into what was read so far. -/
def readFieldsFrom {α : Type} (step : α → String → Node → Reading α) (seen : List String) (value : α) :
    List (Node × Node) → Reading α
  | [] => .ok value
  | (key, node) :: rest => do
    let key ← readText key
    if seen.contains key then .error .unreadable
    else readFieldsFrom step (key :: seen) (← step value key node) rest

/-- A mapping with fixed keys, read into a value that holds what absent keys stand for. -/
def readFields {α : Type} (step : α → String → Node → Reading α) (initial : α) (node : Node) :
    Reading α := do
  readFieldsFrom step [] initial (← orUnreadable node.entries?)

/-- A mapping with fixed keys that may be absent as a whole. -/
def readOptionalFields {α : Type} (step : α → String → Node → Reading α) (initial : α) (node : Node) :
    Reading α := do
  return (← readOptional (readFields step initial) node).getD initial

/-- Read one key of a type. -/
def readTypeField (definition : TypeDefinition) (key : String) (node : Node) :
    Reading TypeDefinition := do
  match key with
  | "typeof" => return { definition with typeof? := (← readOptionalText node).filter (!·.isEmpty) }
  | "uri" => return { definition with uri? := ← readOptionalText node }
  | "description" => return { definition with description? := ← readOptionalText node }
  | _ => .error .unreadable

/-- Read a type of a given name. -/
def readType (name : String) (node : Node) : Reading TypeDefinition :=
  readOptionalFields readTypeField ⟨name, none, none, none⟩ node

/-- Read one key of an attribute. -/
def readAttributeField (attr : Attribute) (key : String) (node : Node) : Reading Attribute := do
  match key with
  | "range" => return { attr with range := (← readOptionalText node).getD "" }
  | "multivalued" => return { attr with multivalued := ← readBool node }
  | "required" => return { attr with required := ← readBool node }
  | "identifier" => return { attr with identifier := ← readBool node }
  | "slot_uri" => return { attr with slotUri? := ← readOptionalText node }
  | "description" => return { attr with description? := ← readOptionalText node }
  | _ => .error .unreadable

/-- Read an attribute of a given name. -/
def readAttribute (name : String) (node : Node) : Reading Attribute :=
  readOptionalFields readAttributeField ⟨name, "", false, false, false, none, none⟩ node

/-- Read one key of a class. -/
def readClassField (definition : ClassDefinition) (key : String) (node : Node) :
    Reading ClassDefinition := do
  match key with
  | "description" => return { definition with description? := ← readOptionalText node }
  | "is_a" => return { definition with parent? := ← readOptionalText node }
  | "class_uri" => return { definition with uri? := ← readOptionalText node }
  | "attributes" => return { definition with attributes := (← readOptionalTable readAttribute node).values }
  | _ => .error .unreadable

/-- Read a class of a given name. -/
def readClass (name : String) (node : Node) : Reading ClassDefinition :=
  readOptionalFields readClassField ⟨name, none, none, none, []⟩ node

/-- Read one key of a document. -/
def readDocumentField (document : Document) (key : String) (node : Node) : Reading Document := do
  match key with
  | "id" => return { document with id := (← readOptionalText node).getD "" }
  | "name" => return { document with name := (← readOptionalText node).getD "" }
  | "description" => return { document with description? := ← readOptionalText node }
  | "default_prefix" => return { document with defaultPrefix? := ← readOptionalText node }
  | "prefixes" => return { document with prefixes := ← readOptionalTable (fun _ => readText) node }
  | "imports" => return { document with imports := (← readOptional readTexts node).getD [] }
  | "default_range" =>
    return { document with defaultRange? := (← readOptionalText node).filter (!·.isEmpty) }
  | "types" => return { document with types := ← readOptionalTable readType node }
  | "classes" => return { document with classes := ← readOptionalTable readClass node }
  | _ => .error .unreadable

/-- A document without declarations and without a name. -/
def blank : Document :=
  ⟨"", "", none, none, [], [], [], none, [], []⟩

/-- The document, provided that it, its schema and its classes have names. -/
def checkNames (document : Document) : Reading Document :=
  if Text.isBlankText document.id then .error (.missingKey "id")
  else if Text.isBlankText document.name then .error (.missingKey "name")
  else if document.classes.keys.any Text.isBlankText then .error .blankClassName
  else .ok document

/-- The document that a text holds. -/
def parse (text : String) : Reading Document := do
  let source := Yaml.Source.ofText text
  let document ← readFields readDocumentField blank source.root
  if source.isClean then checkNames document else .error .unreadable

end ClassSchema.Document
