import ClassSchema.Document.Inheritance
import ClassSchema.Range
import ClassSchema.Range.Registry

/-! # Resolving ranges

A range that an attribute names is a registered type or else a class of the document. An attribute that
names none has the default range of the document. Every output of the library goes through the same
resolver, so they agree on what an attribute is.
-/

namespace ClassSchema

/-- A document with the types that its attributes may refer to. -/
structure RangeResolver where
  document : Document
  registry : TypeRegistry

/-- An attribute, inherited or not, with its range. -/
structure ResolvedAttribute where
  attr : Attribute
  range : Range
deriving DecidableEq, Repr

/-- The error with the class in front of the attribute that it is about. -/
def SchemaError.inClass (className : String) : SchemaError → SchemaError
  | .unknownRange range owner suggestion? => .unknownRange range s!"{className}.{owner}" suggestion?
  | .unresolvedRange owner => .unresolvedRange s!"{className}.{owner}"
  | error => error

namespace RangeResolver

/-- The resolver of a document; a class may not have the name of a type. -/
def ofDocument (document : Document) : Except SchemaError RangeResolver := do
  let registry ← TypeRegistry.ofDocument document
  match document.classes.keys.find? registry.has with
  | some name => .error (.conflict .name name .typeAndClass)
  | none => return ⟨document, registry⟩

/-- The range that a name stands for. -/
def lookup (resolver : RangeResolver) (name owner : String) : Except SchemaError Range :=
  match resolver.registry.get? name with
  | some known => .ok (.scalar known.kind)
  | none =>
    if resolver.document.classes.has name then .ok (.instanceOf name)
    else
      let candidates := resolver.registry.keys ++ resolver.document.classes.keys
      .error (.unknownRange name owner (suggest? name candidates))

/-- The name of an attribute's range, which may be the default one. -/
def rangeName? (resolver : RangeResolver) (attr : Attribute) : Option String :=
  if attr.range.isEmpty then resolver.document.defaultRange? else some attr.range

/-- The range of an attribute. -/
def resolve (resolver : RangeResolver) (attr : Attribute) : Except SchemaError Range :=
  match resolver.rangeName? attr with
  | some name => resolver.lookup name attr.name
  | none => .error (.unresolvedRange attr.name)

/-- The attribute of a class with its range. -/
def resolveAttribute (resolver : RangeResolver) (className : String) (attr : Attribute) :
    Except SchemaError ResolvedAttribute :=
  match resolver.resolve attr with
  | .ok range => .ok ⟨attr, range⟩
  | .error error => .error (error.inClass className)

/-- The attributes of a class, inherited ones included, with their ranges. -/
def resolveClass (resolver : RangeResolver) (className : String) :
    Except SchemaError (List ResolvedAttribute) := do
  let attributes ← (resolver.document.inducedAttributes className).mapError SchemaError.syntaxError
  attributes.mapM (resolver.resolveAttribute className)

/-- The URI that the document declares for a type. -/
def typeUri? (resolver : RangeResolver) (name : String) : Option String :=
  (resolver.registry.get? name).bind RegisteredType.uri?

end RangeResolver

/-- The range of an attribute in a document. -/
def Document.resolveRange (document : Document) (attr : Attribute) : Except SchemaError Range := do
  (← RangeResolver.ofDocument document).resolve attr

end ClassSchema
