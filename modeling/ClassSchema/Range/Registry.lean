import ClassSchema.Document
import ClassSchema.Error
import ClassSchema.Range.Closeness

/-! # The registry of types

The registry knows every type name with the kind that it stands for: first the built-in types, then the
types of a document, each with the kind at the end of its chain of parents. A document may give a
built-in type a URI, but no other kind.
-/

namespace ClassSchema

/-- What the registry knows of a type. -/
structure RegisteredType where
  kind : ScalarKind
  /-- The URI of the datatype as it was declared. -/
  uri? : Option String
deriving DecidableEq, Repr

/-- The types by name, in the order in which they were registered. -/
abbrev TypeRegistry := Table RegisteredType

/-- The parent of a type, if the document declares one. -/
def Document.typeParent? (document : Document) (name : String) : Option String :=
  (document.types.get? name).bind TypeDefinition.typeof?

namespace TypeRegistry

/-- The registry of the built-in types. -/
def builtins : TypeRegistry :=
  builtinTypes.map fun (name, kind) => (name, ⟨kind, none⟩)

/-- The kind at the end of the chain of parents from `current` on, which was reached from `start`. The
names in `seen` may not come again; `fuel` is how many more declared types can be new. -/
def chainKind (document : Document) (start : String) (fuel : Nat) (seen : List String)
    (current : String) : Except SchemaError ScalarKind :=
  if seen.contains current then .error (.conflict .typeDefinition start (.typeCycle current))
  else
    match document.typeParent? current, fuel with
    | none, _ =>
      match builtinKind? current with
      | some kind => .ok kind
      | none =>
        .error (.unknownRange current s!"type {start}" (suggest? current (builtinTypes.map Prod.fst)))
    | some parent, fuel + 1 => chainKind document start fuel (current :: seen) parent
    | some _, 0 => .error (.conflict .typeDefinition start (.typeCycle current))

/-- The kind that a type of a document stands for. -/
def kindOf (document : Document) (name : String) : Except SchemaError ScalarKind :=
  chainKind document name document.types.length [] name

/-- Register a type of a document. -/
def register (document : Document) (registry : TypeRegistry) (name : String)
    (definition : TypeDefinition) : Except SchemaError TypeRegistry := do
  let kind ← kindOf document name
  match registry.get? name with
  | none => return registry.set name ⟨kind, definition.uri?⟩
  | some known =>
    if known.kind ≠ kind then
      .error (.conflict .typeDefinition name (.builtinKind known.kind kind))
    else return registry.set name ⟨kind, definition.uri? <|> known.uri?⟩

/-- Register types of a document one after the other. -/
def registerAll (document : Document) (registry : TypeRegistry) :
    List (String × TypeDefinition) → Except SchemaError TypeRegistry
  | [] => .ok registry
  | (name, definition) :: rest => do
    registerAll document (← register document registry name definition) rest

/-- The registry of a document. -/
def ofDocument (document : Document) : Except SchemaError TypeRegistry :=
  registerAll document builtins document.types

end TypeRegistry

end ClassSchema
