import ClassSchema.Yaml.Composition
import ClassSchema.Yaml.TokenStream

/-! # The document of a text

Aliases are replaced by what they refer to. Two bounds keep this finite: collections are read 128 deep,
and no more aliases are followed than a hundred for every node mark of the document; past either bound
the node is broken.

A text is clean when its one document was read to the end and nothing follows it. A reader first reads
the root, and only then asks whether the text was clean.
-/

namespace ClassSchema.Yaml

mutual

/-- How many marks a node has: one for a scalar or an alias, two for a collection. -/
def LinkedNode.marks : LinkedNode → Nat
  | .scalar .. => 1
  | .alias _ => 1
  | .broken => 0
  | .anchored _ node => node.marks
  | .sequence _ items => 2 + marksOfItems items
  | .mapping _ entries => 2 + marksOfEntries entries

/-- The marks of items together. -/
def marksOfItems : List LinkedNode → Nat
  | [] => 0
  | item :: rest => item.marks + marksOfItems rest

/-- The marks of entries together. -/
def marksOfEntries : List (LinkedNode × LinkedNode) → Nat
  | [] => 0
  | (key, value) :: rest => key.marks + value.marks + marksOfEntries rest

end

mutual

/-- The anchored nodes with their numbers, in the order in which they start. -/
def LinkedNode.targets : LinkedNode → List (Nat × LinkedNode)
  | .scalar .. => []
  | .alias _ => []
  | .broken => []
  | .anchored id node => (id, node) :: node.targets
  | .sequence _ items => targetsOfItems items
  | .mapping _ entries => targetsOfEntries entries

/-- The anchored nodes among items. -/
def targetsOfItems : List LinkedNode → List (Nat × LinkedNode)
  | [] => []
  | item :: rest => item.targets ++ targetsOfItems rest

/-- The anchored nodes among entries. -/
def targetsOfEntries : List (LinkedNode × LinkedNode) → List (Nat × LinkedNode)
  | [] => []
  | (key, value) :: rest => key.targets ++ value.targets ++ targetsOfEntries rest

end

/-- The node that an alias or anchored node stands for, and how many more aliases may be followed. Of
several targets with one number the last counts. -/
def LinkedNode.followed (targets : List (Nat × LinkedNode)) (budget : Nat) :
    LinkedNode → LinkedNode × Nat
  | .anchored _ node => (node, budget)
  | .alias id =>
    match budget, targets.reverse.lookup id with
    | budget + 1, some node => (node, budget)
    | budget, _ => (.broken, budget)
  | node => (node, budget)

/-- Expand nodes from left to right, each with what is left of the budget. -/
def expandEach (expandOne : Nat → LinkedNode → Node × Nat) (budget : Nat) :
    List LinkedNode → List Node × Nat
  | [] => ([], budget)
  | node :: rest =>
    let (node, budget) := expandOne budget node
    let (rest, budget) := expandEach expandOne budget rest
    (node :: rest, budget)

/-- Expand entries from left to right, each with what is left of the budget. -/
def expandPairs (expandOne : Nat → LinkedNode → Node × Nat) (budget : Nat) :
    List (LinkedNode × LinkedNode) → List (Node × Node) × Nat
  | [] => ([], budget)
  | (key, value) :: rest =>
    let (key, budget) := expandOne budget key
    let (value, budget) := expandOne budget value
    let (rest, budget) := expandPairs expandOne budget rest
    ((key, value) :: rest, budget)

/-- Replace aliases by their targets in a node with at most `depth` levels of collections. -/
def expandNode (targets : List (Nat × LinkedNode)) (depth budget : Nat) (node : LinkedNode) :
    Node × Nat :=
  match node.followed targets budget, depth with
  | (.scalar tag style text, budget), _ => (.scalar tag style text, budget)
  | (.sequence tag items, budget), depth + 1 =>
    let (items, budget) := expandEach (expandNode targets depth) budget items
    (.sequence tag items, budget)
  | (.mapping tag entries, budget), depth + 1 =>
    let (entries, budget) := expandPairs (expandNode targets depth) budget entries
    (.mapping tag entries, budget)
  | (_, budget), _ => (.broken, budget)

/-- How deep collections may be nested. -/
def maxDepth : Nat := 128

/-- The root of a text's first document. -/
structure Source where
  root : Node
  /-- Whether the document was read to its end and no other follows it. -/
  isClean : Bool

/-- The document that a text holds. -/
def Source.ofText (text : String) : Source :=
  let (root, rest) := readDocument (tokens text)
  let (expanded, _) := expandNode root.targets maxDepth (100 * root.marks) root
  let isClean :=
    match rest with
    | some rest => (rest.dropWhile (· == .documentEnd)).head? == some .streamEnd
    | none => false
  ⟨expanded, isClean⟩

end ClassSchema.Yaml
