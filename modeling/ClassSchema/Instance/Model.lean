import ClassSchema.Range.Resolver

/-! # Object models

The object model of a document has a table of fields for every class: the attributes, inherited ones
included, with their ranges.
-/

namespace ClassSchema

/-- A row of a class's field table. -/
structure Field where
  name : String
  range : Range
  multivalued : Bool
  /-- Whether a value is required, as it is for every identifier. -/
  required : Bool
  identifier : Bool
  description? : Option String
deriving DecidableEq, Repr

/-- A class with its field table. -/
structure ClassModel where
  name : String
  description? : Option String
  fields : List Field
deriving DecidableEq, Repr

/-- The classes of a schema with their field tables. -/
structure ObjectModel where
  schemaName : String
  classes : Table ClassModel
deriving DecidableEq, Repr

/-- The field for an attribute with its range. -/
def Field.ofAttribute (resolved : ResolvedAttribute) : Field where
  name := resolved.attr.name
  range := resolved.range
  multivalued := resolved.attr.multivalued
  required := resolved.attr.isRequired
  identifier := resolved.attr.identifier
  description? := resolved.attr.description?

/-- The field of a name. -/
def ClassModel.field? (model : ClassModel) (name : String) : Option Field :=
  model.fields.find? fun field => field.name = name

namespace ObjectModel

/-- The class of a name with its field table. -/
def class? (model : ObjectModel) (name : String) : Option ClassModel :=
  model.classes.get? name

/-- The model of a class. -/
def classModel (resolver : RangeResolver) (name : String) (definition : ClassDefinition) :
    Except SchemaError (String × ClassModel) := do
  let attributes ← resolver.resolveClass name
  return (name, ⟨name, definition.description?, attributes.map Field.ofAttribute⟩)

/-- The object model of a document. -/
def ofDocument (document : Document) : Except SchemaError ObjectModel := do
  let resolver ← RangeResolver.ofDocument document
  let classes ← document.classes.mapM fun (name, definition) => classModel resolver name definition
  return ⟨document.name, classes⟩

end ObjectModel

end ClassSchema
