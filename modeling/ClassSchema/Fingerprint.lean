import ClassSchema.Data
import ClassSchema.Document
import ClassSchema.Json.Writer
import ClassSchema.Text.Sha256

/-! # Fingerprints

The fingerprint of data is the SHA-256 hash of its canonical text: compact JSON in which the members of
every map are sorted by their names. So the order in which a document declares its prefixes, types and
classes does not show in its fingerprint, while the order of the attributes of a class does.
-/

namespace ClassSchema

/-- Sort members by name, in code point order. -/
def sortMembers (entries : List (String × Data)) : List (String × Data) :=
  entries.mergeSort fun left right => !decide (right.1 < left.1)

mutual

/-- The same data with the members of every map sorted. -/
def Data.canonical : Data → Data
  | .list items => .list (canonicalItems items)
  | .map entries => .map (sortMembers (canonicalEntries entries))
  | scalar => scalar

/-- The same items with the members of every map sorted. -/
def canonicalItems : List Data → List Data
  | [] => []
  | item :: rest => item.canonical :: canonicalItems rest

/-- The same entries with the members of every map in their values sorted. -/
def canonicalEntries : List (String × Data) → List (String × Data)
  | [] => []
  | (name, value) :: rest => (name, value.canonical) :: canonicalEntries rest

end

/-- The text from which a fingerprint is taken. -/
def Data.canonicalText (data : Data) : String :=
  Json.compact data.canonical

/-- A SHA-256 hash in hexadecimal. -/
structure Fingerprint where
  hex : String
deriving DecidableEq, Repr

namespace Fingerprint

/-- The fingerprint of a text. -/
def ofText (text : String) : Fingerprint :=
  ⟨Text.Sha256.hex text.toUTF8.toList⟩

/-- The fingerprint of data. -/
def ofData (data : Data) : Fingerprint :=
  ofText data.canonicalText

/-- The first twelve digits. -/
def short (fingerprint : Fingerprint) : String :=
  String.ofList (fingerprint.hex.toList.take 12)

/-- The fingerprint with the name of its hash. -/
def text (fingerprint : Fingerprint) : String :=
  "sha256:" ++ fingerprint.hex

end Fingerprint

/-- A type as data. -/
def TypeDefinition.toData (definition : TypeDefinition) : Data :=
  .map ([("name", .text definition.name)] ++ optionalMember "typeof" definition.typeof? ++
    optionalMember "uri" definition.uri? ++ optionalMember "description" definition.description?)

/-- An attribute as data. -/
def Attribute.toData (attr : Attribute) : Data :=
  .map ([("name", .text attr.name), ("range", .text attr.range), ("multivalued", .bool attr.multivalued),
    ("required", .bool attr.required), ("identifier", .bool attr.identifier)] ++
    optionalMember "slot_uri" attr.slotUri? ++ optionalMember "description" attr.description?)

/-- A class as data. -/
def ClassDefinition.toData (definition : ClassDefinition) : Data :=
  .map ([("name", .text definition.name)] ++ optionalMember "description" definition.description? ++
    optionalMember "is_a" definition.parent? ++ optionalMember "class_uri" definition.uri? ++
    [("attributes", .list (definition.attributes.map Attribute.toData))])

/-- A document as data. -/
def Document.toData (document : Document) : Data :=
  .map ([("id", .text document.id), ("name", .text document.name)] ++
    optionalMember "description" document.description? ++
    optionalMember "default_prefix" document.defaultPrefix? ++
    [("prefixes", .map (document.prefixes.map fun (name, uri) => (name, .text uri))),
     ("imports", .list (document.imports.map .text)),
     ("resolved_imports", .list (document.resolvedImports.map .text))] ++
    optionalMember "default_range" document.defaultRange? ++
    [("types", .map (document.types.map fun (name, definition) => (name, definition.toData))),
     ("classes", .map (document.classes.map fun (name, definition) => (name, definition.toData)))])

/-- The fingerprint of a document. -/
def Document.fingerprint (document : Document) : Fingerprint :=
  .ofData document.toData

end ClassSchema
