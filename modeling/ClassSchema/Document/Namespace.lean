import ClassSchema.Document
import ClassSchema.Error

/-! # Compact identifiers

A compact identifier is a prefix, a colon and a local name; it stands for the URI of the prefix followed
by the local name. A text that holds a scheme separator is a full identifier already.
-/

namespace ClassSchema

/-- Whether a text starts with the same characters as another. -/
def startsWith (start : List Char) (cs : List Char) : Bool :=
  start.isPrefixOf cs

/-- Whether a text contains another. -/
def containsText (part : List Char) : List Char → Bool
  | [] => part.isEmpty
  | c :: rest => startsWith part (c :: rest) || containsText part rest

/-- Whether an identifier is complete, which a scheme separator in it shows. -/
def isFullIdentifier (identifier : String) : Bool :=
  containsText "://".toList identifier.toList

/-- The parts of a text before and after its first colon. -/
def splitAtColon? (text : String) : Option (String × String) :=
  let cs := text.toList
  match cs.dropWhile (· ≠ ':') with
  | _ :: rest => some (String.ofList (cs.takeWhile (· ≠ ':')), String.ofList rest)
  | [] => none

namespace Document

/-- The URI that a compact identifier stands for. -/
def expand (document : Document) (curie : String) : Except SchemaError String :=
  if isFullIdentifier curie then .ok curie
  else
    match splitAtColon? curie with
    | none => .error (.unknownPrefix "" curie)
    | some (name, localName) =>
      match document.prefixes.get? name with
      | some base => .ok (base ++ localName)
      | none => .error (.unknownPrefix name curie)

/-- The namespace of classes and attributes without a URI of their own: the URI of the default prefix,
or else the id of the schema with a separator at its end. -/
def namespaceUri (document : Document) : Except SchemaError String :=
  match document.defaultPrefix? with
  | some name =>
    match document.prefixes.get? name with
    | some base => .ok base
    | none => .error (.unknownPrefix name (name ++ ":"))
  | none =>
    let ending := document.id.toList.getLast?
    if ending = some '/' ∨ ending = some '#' then .ok document.id else .ok (document.id ++ "/")

end Document

end ClassSchema
