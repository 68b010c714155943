import ClassSchema.Import.Source

/-! # The built-in library

One library is always at hand: the types, with the URIs of their datatypes. It is known by a short
identifier and by a full one.
-/

namespace ClassSchema

namespace Library

/-- The lines of the types library. -/
def typesLines : List String :=
  ["id: https://w3id.org/linkml/types",
   "name: types",
   "description: Shared type definitions for the core scalar kinds",
   "default_prefix: linkml",
   "prefixes:",
   "  linkml: https://w3id.org/linkml/",
   "  xsd: http://www.w3.org/2001/XMLSchema#",
   "types:",
   "  string:",
   "    uri: xsd:string",
   "    description: A character string",
   "  integer:",
   "    uri: xsd:integer",
   "    description: An integer of arbitrary size",
   "  decimal:",
   "    uri: xsd:decimal",
   "    description: An exact fixed-point number of arbitrary precision",
   "  boolean:",
   "    uri: xsd:boolean",
   "    description: A binary (true or false) value",
   "  date:",
   "    uri: xsd:date",
   "    description: A calendar date in ISO-8601 form (YYYY-MM-DD)",
   "  uri:",
   "    uri: xsd:anyURI",
   "    description: A complete URI",
   "  uriorcurie:",
   "    uri: xsd:anyURI",
   "    description: A URI or a CURIE"]

/-- The text of the types library. -/
def typesText : String :=
  String.join (typesLines.map (· ++ "\n"))

/-- Where the libraries live. -/
def baseUri : String := "https://w3id.org/linkml/"

/-- The import identifiers of the libraries. -/
def available : List String := ["linkml:types"]

/-- Whether an import identifier stands for the types library. -/
def isTypes (identifier : String) : Bool :=
  identifier == "linkml:types" || identifier == baseUri ++ "types"

end Library

/-- The source that holds the built-in library. -/
def ImportSource.builtin : ImportSource where
  load identifier := .ok (if Library.isTypes identifier then some Library.typesText else none)
  texts := [Library.typesText]
  mem_texts := by
    intro identifier text loaded
    simp only [Except.ok.injEq] at loaded
    split at loaded <;> simp_all

end ClassSchema
