import ClassSchema.Reachability
import ClassSchema.Text.Hex
import ClassSchema.Validation.Document

/-! # References to definitions

A reference is a URI fragment that holds a JSON Pointer. Its text must be one of RFC 3986; it is followed by
decoding the percent-encoded bytes, splitting at slashes and decoding `~1` and `~0`. Class names stand in
references as they are, so a name may make a reference that is no fragment, that leads nowhere, or that
leads to the definition of another class. With a slash in it, percent-encoded or not, a name makes a path that goes
past the definitions of classes, into a part of one of them or nowhere. Such paths are not followed here: all of them
count as leading nowhere, also where a part of a definition could be met.
-/

namespace ClassSchema

/-- Whether a character may stand in a fragment as it is. -/
def isFragmentChar (c : Char) : Bool :=
  c.isAlphanum || "-._~!$&'()*+,;=:@/?".toList.contains c

/-- Whether characters are a fragment: bytes that are percent-encoded have two digits. -/
def isFragment : List Char → Bool
  | [] => true
  | '%' :: high :: low :: rest =>
    (Text.hexValue? high).isSome && (Text.hexValue? low).isSome && isFragment rest
  | c :: rest => isFragmentChar c && isFragment rest

/-- The bytes of a text with percent-encoded bytes decoded. -/
def percentDecodedBytes : List Char → List UInt8
  | [] => []
  | '%' :: high :: low :: rest =>
    match Text.hexValue? high, Text.hexValue? low with
    | some high, some low => UInt8.ofNat (high * 16 + low) :: percentDecodedBytes rest
    | _, _ => '%'.toUInt8 :: percentDecodedBytes (high :: low :: rest)
  | c :: rest => String.utf8EncodeChar c ++ percentDecodedBytes rest

/-- The text with percent-encoded bytes decoded, if they make one. -/
def percentDecoded? (cs : List Char) : Option String :=
  String.fromUTF8? (ByteArray.mk (percentDecodedBytes cs).toArray)

/-- A segment of a pointer with its escapes decoded. -/
def unescapedSegment : List Char → List Char
  | [] => []
  | '~' :: '1' :: rest => '/' :: unescapedSegment rest
  | '~' :: '0' :: rest => '~' :: unescapedSegment rest
  | '~' :: c :: rest => '~' :: c :: unescapedSegment rest
  | c :: rest => c :: unescapedSegment rest

namespace ValidationDocument

/-- The class whose definition the reference for a name leads to. A path into a definition leads to none. -/
def target? (document : ValidationDocument) (name : String) : Option ClassConstraints :=
  if isFragment name.toList then
    match percentDecoded? name.toList with
    | some pointer =>
      if pointer.toList.contains '/' then none
      else document.class? (String.ofList (unescapedSegment pointer.toList))
    | none => none
  else none

/-- The classes whose definitions are referred to in the definition of a class. -/
def targets (document : ValidationDocument) (name : String) : List String :=
  match document.class? name with
  | some constraints =>
    constraints.classNames.filterMap fun className => (document.target? className).map ClassConstraints.name
  | none => []

/-- Whether the references of a class's definition lead to definitions. -/
def isLinked (document : ValidationDocument) (name : String) : Bool :=
  match document.class? name with
  | some constraints => constraints.classNames.all fun className => (document.target? className).isSome
  | none => true

/-- Whether the reference for a class and all references that are met from there on lead to definitions of classes.
This refuses every name that makes a path into a definition; a validator that follows such paths builds for some of
them. -/
def isBuildable (document : ValidationDocument) (name : String) : Bool :=
  match document.target? name with
  | some root =>
    (reachable document.classes.keys document.targets root.name).all document.isLinked
  | none => false

end ValidationDocument

end ClassSchema
