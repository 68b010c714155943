import ClassSchema.Graph
import ClassSchema.Reachability

/-! # Properties that close a cycle

A property of one value that leads to a class from which its own class can be reached closes a cycle: a
record that held the value itself would have no finite size.
-/

namespace ClassSchema

/-- A property of a class. -/
structure OwnedProperty where
  className : String
  property : String
deriving DecidableEq, Repr

namespace SchemaGraph

/-- The classes that the properties of a class refer to. -/
def successors (graph : SchemaGraph) (name : String) : List String :=
  match graph.shape? name with
  | some shape => shape.classNames
  | none => []

/-- Whether a class can be reached from another by properties of any number of values. -/
def reaches (graph : SchemaGraph) (start goal : String) : Bool :=
  (reachable graph.shapes.keys graph.successors start).contains goal

/-- Whether a property of a class closes a cycle. -/
def closesCycle (graph : SchemaGraph) (className : String) (property : ShapeProperty) : Bool :=
  property.maxCount? == some 1 &&
    property.datatype.className?.any fun target => graph.reaches target className

/-- The properties that close a cycle. -/
def recursiveProperties (graph : SchemaGraph) : List OwnedProperty :=
  graph.shapes.values.flatMap fun shape =>
    (shape.properties.filter (graph.closesCycle shape.name)).map fun property => ⟨shape.name, property.name⟩

end SchemaGraph

end ClassSchema
