import ClassSchema.Yaml.Token

/-! # Nodes of YAML

A node is what a reader of typed data sees: a scalar, a sequence or a mapping, with its tag if one was
given. A node that could not be read to its end is marked as broken there, so that a reader that never
comes to that place can still report what it found before.

While a document is put together its nodes may be anchored and may refer to each other; such nodes are
linked nodes, and aliases in them name their target by a number.
-/

namespace ClassSchema.Yaml

/-- A node without references. -/
inductive Node where
  | scalar (tag : Option String) (style : Style) (text : String)
  | sequence (tag : Option String) (items : List Node)
  | mapping (tag : Option String) (entries : List (Node × Node))
  /-- The text cannot be read from here on. -/
  | broken
deriving Inhabited, Repr

/-- A node that may be anchored and may refer to anchored nodes. -/
inductive LinkedNode where
  | scalar (tag : Option String) (style : Style) (text : String)
  | sequence (tag : Option String) (items : List LinkedNode)
  | mapping (tag : Option String) (entries : List (LinkedNode × LinkedNode))
  | anchored (id : Nat) (node : LinkedNode)
  | alias (id : Nat)
  | broken
deriving Inhabited, Repr

/-- The plain scalar that stands where no node is written. -/
def Node.empty : Node :=
  .scalar none .plain ""

/-- The plain scalar that stands where no node is written. -/
def LinkedNode.empty : LinkedNode :=
  .scalar none .plain ""

end ClassSchema.Yaml
