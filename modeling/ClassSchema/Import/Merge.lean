import ClassSchema.Document
import ClassSchema.Error

/-! # Merging definitions

Two documents are merged by taking all their definitions together. A name that both define must be
defined alike: the same URI for a prefix, the same parent for a type or a class, and the same attributes
for a class. URIs and descriptions that only one of them gives are taken over, and of two descriptions the
first counts.
-/

namespace ClassSchema

/-- A result, or how two definitions differ. -/
abbrev Merging (α : Type) := Except Disagreement α

/-- The URI that either side gives; two different ones disagree. -/
def mergeUri (subject : String) (left right : Option String) : Merging (Option String) :=
  match left, right with
  | some x, some y => if x = y then .ok (some x) else .error (.uris subject x y)
  | left, right => .ok (left <|> right)

/-- The URI of a prefix that both sides give. -/
def mergePrefix (left right : String) : Merging String :=
  if left = right then .ok left else .error (.prefixes left right)

/-- The type that both sides define. -/
def TypeDefinition.merge (left right : TypeDefinition) : Merging TypeDefinition :=
  if left.typeof? ≠ right.typeof? then .error (.parentType left.typeof? right.typeof?)
  else do
    let uri? ← mergeUri "uri" left.uri? right.uri?
    return { left with uri? := uri?, description? := left.description? <|> right.description? }

/-- Whether two attributes have the same range and take the same number of values. -/
def Attribute.sameShape (left right : Attribute) : Bool :=
  left.range == right.range && left.multivalued == right.multivalued &&
    left.required == right.required && left.identifier == right.identifier

/-- The attribute that both sides define. -/
def Attribute.merge (left right : Attribute) : Merging Attribute :=
  if left.name ≠ right.name then .error (.attributeName left.name right.name)
  else if !left.sameShape right then .error (.attributeShape left.name)
  else do
    let slotUri? ← mergeUri s!"'{left.name}' slot_uri" left.slotUri? right.slotUri?
    return { left with slotUri? := slotUri?, description? := left.description? <|> right.description? }

/-- The attributes that both sides define, in the same order. -/
def mergeAttributes : List Attribute → List Attribute → Merging (List Attribute)
  | left :: lefts, right :: rights => do
    let merged ← left.merge right
    let rest ← mergeAttributes lefts rights
    return merged :: rest
  | _, _ => .ok []

/-- The class that both sides define. -/
def ClassDefinition.merge (left right : ClassDefinition) : Merging ClassDefinition :=
  if left.parent? ≠ right.parent? then .error .parentClass
  else if left.attributes.length ≠ right.attributes.length then .error .attributes
  else do
    let attributes ← mergeAttributes left.attributes right.attributes
    let uri? ← mergeUri "class_uri" left.uri? right.uri?
    return { left with
      uri? := uri?
      description? := left.description? <|> right.description?
      attributes := attributes }

/-- Merge one definition into a table. -/
def mergeEntry {α : Type} (merge : α → α → Merging α) (kind : DefinitionKind) (source : String)
    (target : Table α) (name : String) (value : α) : Except SchemaError (Table α) :=
  match target.get? name with
  | none => .ok (target.set name value)
  | some known =>
    match merge known value with
    | .ok merged => .ok (target.set name merged)
    | .error disagreement => .error (.conflict kind name (.merge disagreement source))

/-- Merge definitions into a table one after the other. -/
def mergeTable {α : Type} (merge : α → α → Merging α) (kind : DefinitionKind) (source : String)
    (target : Table α) : List (String × α) → Except SchemaError (Table α)
  | [] => .ok target
  | (name, value) :: rest => do
    mergeTable merge kind source (← mergeEntry merge kind source target name value) rest

/-- Merge the definitions of a document into another one. -/
def Document.merge (target source : Document) : Except SchemaError Document := do
  let prefixes ← mergeTable mergePrefix .prefixUri source.id target.prefixes source.prefixes
  let types ← mergeTable TypeDefinition.merge .typeDefinition source.id target.types source.types
  let classes ← mergeTable ClassDefinition.merge .classDefinition source.id target.classes source.classes
  return { target with prefixes := prefixes, types := types, classes := classes }

end ClassSchema
