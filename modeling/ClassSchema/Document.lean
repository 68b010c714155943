import ClassSchema.Table

/-! # Schema documents

A document names a schema and declares prefixes, imports, types and classes. A class has a parent at
most and attributes of its own; an attribute has a range, which is the name of a type or of a class, and
says how many values it takes.
-/

namespace ClassSchema

/-- A type that a document declares. -/
structure TypeDefinition where
  name : String
  /-- The type that this one is derived from; only built-in type names have none. -/
  typeof? : Option String
  uri? : Option String
  description? : Option String
deriving DecidableEq, Repr, Inhabited

/-- An attribute of a class. -/
structure Attribute where
  name : String
  /-- The range; an empty one stands for the default range of the document. -/
  range : String
  multivalued : Bool
  required : Bool
  identifier : Bool
  slotUri? : Option String
  description? : Option String
deriving DecidableEq, Repr, Inhabited

/-- Whether every instance must have a value for the attribute; identifiers always must. -/
def Attribute.isRequired (attr : Attribute) : Bool :=
  attr.required || attr.identifier

/-- A class with the attributes that it declares itself. -/
structure ClassDefinition where
  name : String
  description? : Option String
  parent? : Option String
  uri? : Option String
  attributes : List Attribute
deriving DecidableEq, Repr, Inhabited

/-- A schema document. -/
structure Document where
  id : String
  name : String
  description? : Option String
  defaultPrefix? : Option String
  prefixes : Table String
  /-- The import identifiers that the document declares. -/
  imports : List String
  /-- The import identifiers whose sources are merged into the document. -/
  resolvedImports : List String
  /-- The range of attributes that name none. -/
  defaultRange? : Option String
  types : Table TypeDefinition
  classes : Table ClassDefinition
deriving DecidableEq, Repr, Inhabited

end ClassSchema
