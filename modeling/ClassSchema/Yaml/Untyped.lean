import ClassSchema.Json.Reader
import ClassSchema.Number.Shortest
import ClassSchema.Number.Word
import ClassSchema.Yaml.Scalar
import ClassSchema.Yaml.Source

/-! # Untyped reading of YAML

A node becomes untyped data: scalars by what they stand for, keys as the text that was written, and of a
repeated key the last value. What becomes of numbers that other formats lack and of local tags is up to
the reader, so a reading rule says it.
-/

namespace ClassSchema.Yaml

/-- What a reader makes of wide integers, floating-point numbers, mappings and local tags. -/
structure UntypedRule where
  /-- Whether integers beyond 64 bits are read. -/
  allowsWideIntegers : Bool
  float : Binary64 → Data
  mapping? : List (String × Data) → Option Data
  /-- Whether a node with a local tag is read, as the name of the tag. -/
  allowsLocalTags : Bool

namespace UntypedRule

/-- The data that a scalar value stands for. -/
def scalar? (rule : UntypedRule) : ScalarValue → Option Data
  | .null => some .null
  | .bool value => some (.bool value)
  | .integer value =>
    if rule.allowsWideIntegers || isAnyWord value then some (.number (toString value)) else none
  | .float value => some (rule.float value)
  | .text value => some (.text value)

/-- The rule for a whole document: a float is written in the compact layout, one that is not finite is
null, a mapping is what it is in JSON, and local tags are refused. -/
def document : UntypedRule where
  allowsWideIntegers := true
  float value := (value.compactText?.map Data.number).getD .null
  mapping? := Json.objectData?
  allowsLocalTags := false

/-- The rule for a value that no schema declares: a float is written in the positional layout, and only
the name of a local tag is kept. -/
def undeclared : UntypedRule where
  allowsWideIntegers := false
  float value := .number value.positionalText
  mapping? entries := some (.map (Table.ofPairs entries))
  allowsLocalTags := true

end UntypedRule

mutual

/-- Whether a node was read to its end. -/
def Node.isWhole : Node → Bool
  | .scalar .. => true
  | .sequence _ items => areWhole items
  | .mapping _ entries => arePairsWhole entries
  | .broken => false

/-- Whether items were read to their end. -/
def areWhole : List Node → Bool
  | [] => true
  | item :: rest => item.isWhole && areWhole rest

/-- Whether entries were read to their end. -/
def arePairsWhole : List (Node × Node) → Bool
  | [] => true
  | (key, value) :: rest => key.isWhole && value.isWhole && arePairsWhole rest

end

/-- What a node with a local tag is read as. -/
def taggedData? (rule : UntypedRule) (name : String) (isWhole : Bool) : Option Data :=
  if rule.allowsLocalTags && isWhole then some (.text name) else none

mutual

/-- The untyped data of a node. -/
def Node.toData? (rule : UntypedRule) : Node → Option Data
  | .scalar tag style text =>
    match localTag? tag with
    | some name => taggedData? rule name true
    | none => (scalarValue? tag style text).bind rule.scalar?
  | .sequence tag items =>
    match localTag? tag with
    | some name => taggedData? rule name (areWhole items)
    | none => (itemsToData? rule items).map .list
  | .mapping tag entries =>
    match localTag? tag with
    | some name => taggedData? rule name (arePairsWhole entries)
    | none => (entriesToData? rule entries).bind rule.mapping?
  | .broken => none

/-- The untyped data of items. -/
def itemsToData? (rule : UntypedRule) : List Node → Option (List Data)
  | [] => some []
  | item :: rest => do
    let item ← item.toData? rule
    let rest ← itemsToData? rule rest
    return item :: rest

/-- The untyped data of entries. -/
def entriesToData? (rule : UntypedRule) : List (Node × Node) → Option (List (String × Data))
  | [] => some []
  | (key, value) :: rest => do
    let key ← key.text?
    let value ← value.toData? rule
    let rest ← entriesToData? rule rest
    return (key, value) :: rest

end

/-- The untyped data of a text that holds one document. -/
def read? (text : String) : Option Data :=
  let source := Source.ofText text
  match source.root.toData? .document with
  | some value => if source.isClean then some value else none
  | none => none

end ClassSchema.Yaml
