import ClassSchema.Graph

/-! # Layouts of graphs

A layout numbers the nodes of a semantic graph. The classes come first, in their order; then the edges are laid
one after the other, and an end that has no number yet is given the next one. The links that result name the
numbers of their ends. What a class refers to, and what refers to it, is read off the links.
-/

namespace ClassSchema

/-- An edge between numbered nodes. -/
structure GraphLink where
  source : Nat
  target : Nat
  label : String
deriving DecidableEq, Repr

/-- Nodes, numbered by their places, and the links between them. -/
structure GraphLayout where
  nodes : List GraphNode
  links : List GraphLink
deriving DecidableEq, Repr

namespace GraphLayout

/-- The number of a node, and the layout with the node in it; a new node comes behind the others. -/
def intern (layout : GraphLayout) (node : GraphNode) : GraphLayout × Nat :=
  match layout.nodes.idxOf? node with
  | some index => (layout, index)
  | none => ({ layout with nodes := layout.nodes ++ [node] }, layout.nodes.length)

/-- The layout with a node in it. -/
def addNode (layout : GraphLayout) (node : GraphNode) : GraphLayout :=
  (layout.intern node).1

/-- The layout with an edge in it, and with the ends of the edge. -/
def addEdge (layout : GraphLayout) (edge : GraphEdge) : GraphLayout :=
  let (withSource, source) := layout.intern edge.source
  let (withTarget, target) := withSource.intern edge.target
  { withTarget with links := withTarget.links ++ [⟨source, target, edge.label⟩] }

/-- The class that a number stands for. -/
def className? (layout : GraphLayout) (index : Nat) : Option String :=
  match layout.nodes[index]? with
  | some (.ofClass name) => some name
  | _ => none

end GraphLayout

/-- The list without the repetitions of what stands further to the front. -/
def firstOccurrences {α : Type} [DecidableEq α] (items : List α) : List α :=
  items.foldl (fun firsts item => if item ∈ firsts then firsts else firsts ++ [item]) []

/-- The names in order, each of them once. -/
def sortedNames (names : List String) : List String :=
  (firstOccurrences names).mergeSort fun left right => !(right < left)

/-- The classes at the far ends of the links that have a class at their near ends, in the order of their names. -/
def GraphLayout.neighbours (layout : GraphLayout) (near far : GraphLink → Nat) (name : String) : List String :=
  match layout.nodes.idxOf? (.ofClass name) with
  | none => []
  | some index =>
    sortedNames <| (layout.links.filter fun link => near link == index).filterMap fun link =>
      layout.className? (far link)

namespace SchemaGraph

/-- The layout of the graph. -/
def layout (graph : SchemaGraph) : GraphLayout :=
  let classes := (graph.shapes.keys.map GraphNode.ofClass).foldl GraphLayout.addNode ⟨[], []⟩
  graph.edges.foldl GraphLayout.addEdge classes

/-- The nodes, in the order of their numbers. -/
def nodes (graph : SchemaGraph) : List GraphNode :=
  graph.layout.nodes

/-- The classes that the links from a class lead to. -/
def referencesFrom (graph : SchemaGraph) (name : String) : List String :=
  graph.layout.neighbours GraphLink.source GraphLink.target name

/-- The classes that the links to a class come from. -/
def referencesTo (graph : SchemaGraph) (name : String) : List String :=
  graph.layout.neighbours GraphLink.target GraphLink.source name

end SchemaGraph

end ClassSchema
