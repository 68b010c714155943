import ClassSchema.Graph.Layout

/-! # Graphs in DOT

A statement for every node of the layout, under its number, and one for every link. Labels are written as they
are.
-/

namespace ClassSchema

/-- The statement for a node with a number. -/
def GraphNode.dotStatement (index : Nat) : GraphNode → String
  | .ofClass name => s!"  n{index} [label=\"{name}\", shape=box];\n"
  | .ofDatatype datatype => s!"  n{index} [label=\"{datatype.text}\", shape=ellipse];\n"

/-- The statement for a link. -/
def GraphLink.dotStatement (link : GraphLink) : String :=
  s!"  n{link.source} -> n{link.target} [label=\"{link.label}\"];\n"

namespace SchemaGraph

/-- The graph in DOT. -/
def toDot (graph : SchemaGraph) : String :=
  let layout := graph.layout
  let nodes := layout.nodes.mapIdx GraphNode.dotStatement
  let links := layout.links.map GraphLink.dotStatement
  "digraph SchemaGraph \x7b\n  rankdir=LR;\n  node [fontname=\"Helvetica\", fontsize=10];\n\n" ++
    String.join nodes ++ "\n" ++ String.join links ++ "\x7d\n"

end SchemaGraph

end ClassSchema
