import ClassSchema.Document.Namespace
import ClassSchema.Graph.Iri
import ClassSchema.Range.Resolver

/-! # Semantic graphs

A semantic graph has a shape for every class and in it a property for every attribute, inherited ones
included. IRIs are taken from the document, or else made in its namespace. The nodes of the graph are the
classes and the datatypes in use; every property is an edge from its class to its datatype, or to the class
that its values are instances of.
-/

namespace ClassSchema

/-- What the values of a property are in a semantic graph. -/
inductive Datatype where
  | string
  | integer
  | decimal
  | boolean
  | date
  /-- A resource, perhaps of a class. -/
  | resource (className? : Option String)
deriving DecidableEq, Repr

/-- The namespace of the datatypes of XML Schema. -/
def xsdNamespace : String := "http://www.w3.org/2001/XMLSchema#"

namespace Datatype

/-- The datatype of a range. -/
def ofRange : Range → Datatype
  | .scalar .string => .string
  | .scalar .integer => .integer
  | .scalar .decimal => .decimal
  | .scalar .boolean => .boolean
  | .scalar .date => .date
  | .scalar .uri => .resource none
  | .instanceOf className => .resource (some className)

/-- The name of a literal datatype in XML Schema. -/
def xsdName? : Datatype → Option String
  | .string => some "string"
  | .integer => some "integer"
  | .decimal => some "decimal"
  | .boolean => some "boolean"
  | .date => some "date"
  | .resource _ => none

/-- The IRI of a literal datatype. -/
def iri? (datatype : Datatype) : Option String :=
  datatype.xsdName?.map (xsdNamespace ++ ·)

/-- The kind of scalars that the datatype is for; resources of a class are no scalars. -/
def kind? : Datatype → Option ScalarKind
  | .string => some .string
  | .integer => some .integer
  | .decimal => some .decimal
  | .boolean => some .boolean
  | .date => some .date
  | .resource none => some .uri
  | .resource (some _) => none

/-- The class that the values are instances of. -/
def className? : Datatype → Option String
  | .resource className? => className?
  | _ => none

/-- The datatype as labels show it. -/
def text : Datatype → String
  | .resource (some className) => s!"resource({className})"
  | .resource none => "resource"
  | .string => "xsd:string"
  | .integer => "xsd:integer"
  | .decimal => "xsd:decimal"
  | .boolean => "xsd:boolean"
  | .date => "xsd:date"

end Datatype

/-- A property of a shape. -/
structure ShapeProperty where
  name : String
  iri : String
  datatype : Datatype
  /-- How many values there must be at least. -/
  minCount : Nat
  /-- How many values there may be at most; `none` for any number. -/
  maxCount? : Option Nat
  description? : Option String
deriving DecidableEq, Repr

/-- The shape of a class. -/
structure Shape where
  name : String
  iri : String
  description? : Option String
  properties : List ShapeProperty
deriving DecidableEq, Repr

/-- A node of the graph. -/
inductive GraphNode where
  | ofClass (name : String)
  | ofDatatype (datatype : Datatype)
deriving DecidableEq, Repr

/-- An edge of the graph: a property of a class, and the node of its datatype. -/
structure GraphEdge where
  source : GraphNode
  target : GraphNode
  label : String
deriving DecidableEq, Repr

/-- The semantic graph of a schema. -/
structure SchemaGraph where
  id : String
  /-- The namespace of IRIs that the document does not give. -/
  namespaceUri : String
  prefixes : Table String
  shapes : Table Shape
deriving DecidableEq, Repr

/-- The IRI that a document gives, or else the one that a name has in a namespace. -/
def Document.iri (document : Document) (namespaceUri : String) (uri? : Option String) (name : String) :
    Except SchemaError String :=
  match uri? with
  | some uri => (document.expand uri).map escapeIri
  | none => .ok (escapeIri (namespaceUri ++ name))

/-- The property for an attribute with its range. -/
def ShapeProperty.ofAttribute (document : Document) (namespaceUri : String) (resolved : ResolvedAttribute) :
    Except SchemaError ShapeProperty := do
  let attr := resolved.attr
  let iri ← document.iri namespaceUri attr.slotUri? attr.name
  return {
    name := attr.name
    iri := iri
    datatype := .ofRange resolved.range
    minCount := if attr.isRequired then 1 else 0
    maxCount? := if attr.multivalued then none else some 1
    description? := attr.description? }

namespace Shape

/-- The shape of a class. -/
def ofClass (resolver : RangeResolver) (namespaceUri name : String) (definition : ClassDefinition) :
    Except SchemaError Shape := do
  let iri ← resolver.document.iri namespaceUri definition.uri? name
  let attributes ← resolver.resolveClass name
  let properties ← attributes.mapM (ShapeProperty.ofAttribute resolver.document namespaceUri)
  return ⟨name, iri, definition.description?, properties⟩

/-- The property of a name. -/
def property? (shape : Shape) (name : String) : Option ShapeProperty :=
  shape.properties.find? fun property => property.name = name

/-- The classes that the properties refer to, in their order. -/
def classNames (shape : Shape) : List String :=
  shape.properties.filterMap fun property => property.datatype.className?

end Shape

/-- The node that a property of a datatype leads to. -/
def Datatype.node (datatype : Datatype) : GraphNode :=
  match datatype.className? with
  | some className => .ofClass className
  | none => .ofDatatype datatype

namespace SchemaGraph

/-- The semantic graph of a document. -/
def ofDocument (document : Document) : Except SchemaError SchemaGraph := do
  let resolver ← RangeResolver.ofDocument document
  let namespaceUri ← document.namespaceUri
  let shapes ← document.classes.mapM fun (name, definition) => do
    return (name, ← Shape.ofClass resolver namespaceUri name definition)
  return ⟨document.id, namespaceUri, document.prefixes, shapes⟩

/-- The shape of a class. -/
def shape? (graph : SchemaGraph) (name : String) : Option Shape :=
  graph.shapes.get? name

/-- The edges, in the order of the shapes and their properties. -/
def edges (graph : SchemaGraph) : List GraphEdge :=
  graph.shapes.values.flatMap fun shape =>
    shape.properties.map fun property => ⟨.ofClass shape.name, property.datatype.node, property.name⟩

end SchemaGraph

end ClassSchema
