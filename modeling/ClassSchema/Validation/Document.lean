import ClassSchema.Range.Resolver
import ClassSchema.Validation.Rule

/-! # Validation documents

A validation document says in JSON Schema, draft 2020-12, what the JSON data of each class of a schema looks
like. It has a definition for every class, with a property for every attribute; attributes of class ranges
refer to the definitions of their classes, and attributes that are not required also take null.
-/

namespace ClassSchema

/-- What a validation document asks of data: a value of a range, or an array of such values. -/
structure ValueConstraint where
  /-- The scalar kind of each value, or the class whose definition it refers to. -/
  range : Range
  multivalued : Bool
  /-- Whether null is refused, and an empty array too. -/
  required : Bool
deriving DecidableEq, Repr

/-- What a validation document says about an attribute. -/
structure PropertyConstraint extends ValueConstraint where
  name : String
  description? : Option String
deriving DecidableEq, Repr

/-- What is asked of each item of an array of a range. -/
def Range.single (range : Range) : ValueConstraint :=
  ⟨range, false, true⟩

/-- The definition of a class. -/
structure ClassConstraints where
  name : String
  description? : Option String
  properties : List PropertyConstraint
deriving DecidableEq, Repr

/-- The definitions of all classes of a schema. -/
structure ValidationDocument where
  id : String
  title : String
  description? : Option String
  classes : Table ClassConstraints
deriving DecidableEq, Repr

/-- The constraint for an attribute with its range. -/
def PropertyConstraint.ofAttribute (resolved : ResolvedAttribute) : PropertyConstraint where
  name := resolved.attr.name
  range := resolved.range
  multivalued := resolved.attr.multivalued
  required := resolved.attr.isRequired
  description? := resolved.attr.description?

namespace ClassConstraints

/-- The constraint for an attribute. -/
def property? (constraints : ClassConstraints) (name : String) : Option PropertyConstraint :=
  constraints.properties.find? fun property => property.name = name

/-- The names of the required attributes. -/
def requiredNames (constraints : ClassConstraints) : List String :=
  (constraints.properties.filter fun property => property.required).map PropertyConstraint.name

/-- The classes that the attributes refer to. -/
def classNames (constraints : ClassConstraints) : List String :=
  constraints.properties.filterMap fun property => property.range.className?

end ClassConstraints

namespace ValidationDocument

/-- The constraints for a class. -/
def classConstraints (resolver : RangeResolver) (name : String) (definition : ClassDefinition) :
    Except SchemaError (String × ClassConstraints) := do
  let attributes ← resolver.resolveClass name
  return (name, ⟨name, definition.description?, attributes.map PropertyConstraint.ofAttribute⟩)

/-- The validation document of a schema. -/
def ofDocument (document : Document) : Except SchemaError ValidationDocument := do
  let resolver ← RangeResolver.ofDocument document
  let classes ← document.classes.mapM fun (name, definition) => classConstraints resolver name definition
  return ⟨document.id, document.name, document.description?, classes⟩

/-- The definition of a class. -/
def class? (document : ValidationDocument) (name : String) : Option ClassConstraints :=
  document.classes.get? name

end ValidationDocument

/-- The reference to the definition of a class. -/
def referenceText (className : String) : String :=
  "#/$defs/" ++ className

/-- The URI of the draft. -/
def draftUri : String := "https://json-schema.org/draft/2020-12/schema"

/-- The type of a scalar or an array, perhaps with null beside it. -/
def JsonType.toData (type : JsonType) (nullable : Bool) : Data :=
  if nullable then .list [.text type.name, .text JsonType.null.name] else .text type.name

namespace ScalarRule

/-- The members of a rule, perhaps with null allowed. -/
def entries (rule : ScalarRule) (nullable : Bool) : List (String × Data) :=
  ("type", rule.type.toData nullable) ::
    ((if rule.isDate then [("format", .text "date")] else []) ++
      optionalMember "pattern" (rule.pattern?.map TextPattern.text))

end ScalarRule

/-- The members that a single value of a range must meet. -/
def Range.schemaEntries : Range → List (String × Data)
  | .scalar kind => kind.rule.entries false
  | .instanceOf className => [("$ref", .text (referenceText className))]

/-- The members for data that is asked for. -/
def ValueConstraint.entries (constraint : ValueConstraint) : List (String × Data) :=
  if constraint.multivalued then
    [("type", JsonType.array.toData (!constraint.required)), ("items", .map constraint.range.schemaEntries)] ++
      (if constraint.required then [("minItems", .number "1")] else [])
  else
    match constraint.range with
    | .scalar kind => kind.rule.entries (!constraint.required)
    | .instanceOf className =>
      let reference := Range.schemaEntries (.instanceOf className)
      if constraint.required then reference
      else [("anyOf", .list [.map reference, .map [("type", JsonType.null.toData false)]])]

/-- The schema of an attribute. -/
def PropertyConstraint.toData (property : PropertyConstraint) : Data :=
  .map (property.entries ++ optionalMember "description" property.description?)

/-- The schema of a class. -/
def ClassConstraints.toData (constraints : ClassConstraints) : Data :=
  let required := constraints.requiredNames
  .map ([("type", JsonType.object.toData false)] ++ optionalMember "description" constraints.description? ++
    [("properties", .map (constraints.properties.map fun property => (property.name, property.toData)))] ++
    (if required.isEmpty then [] else [("required", .list (required.map .text))]) ++
    [("additionalProperties", .bool false)])

namespace ValidationDocument

/-- The definitions of all classes. -/
def definitions (document : ValidationDocument) : Data :=
  .map (document.classes.map fun (name, constraints) => (name, constraints.toData))

/-- The document as JSON data. -/
def toData (document : ValidationDocument) : Data :=
  .map ([("$schema", .text draftUri), ("$id", .text document.id), ("title", .text document.title)] ++
    optionalMember "description" document.description? ++ [("$defs", document.definitions)])

/-- The document with a class as its root. -/
def forClass? (document : ValidationDocument) (name : String) : Option Data :=
  if (document.class? name).isSome then
    some (.map [("$schema", .text draftUri), ("title", .text name), ("$ref", .text (referenceText name)),
      ("$defs", document.definitions)])
  else none

end ValidationDocument

end ClassSchema
