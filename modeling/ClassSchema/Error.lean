import ClassSchema.ScalarKind

/-! # Schema errors

Why a document cannot be read, merged or resolved. An error is a cause; its wording is in `message`.
-/

namespace ClassSchema

/-- What is wrong with the text or the structure of one document. -/
inductive SyntaxError where
  /-- The text is no document: bad YAML, an unknown key, a value of the wrong type. -/
  | unreadable
  | duplicateKey (key : String)
  | missingKey (key : String)
  | blankClassName
  | inheritanceCycle (className : String)
  | undefinedClass (className : String)
deriving DecidableEq, Repr

/-- The wording of a syntax error, apart from what it is about; `none` where nothing more is said. -/
def SyntaxError.detail? : SyntaxError → Option String
  | .unreadable => none
  | .duplicateKey key => some s!"duplicate key '{key}'"
  | .missingKey key => some s!"missing required key '{key}'"
  | .blankClassName => some "class with an empty name"
  | .inheritanceCycle className => some s!"is_a cycle through class '{className}'"
  | .undefinedClass className => some s!"class '{className}' is not defined"

/-- The wording of a syntax error. -/
def SyntaxError.message (error : SyntaxError) : String :=
  match error.detail? with
  | some detail => "Schema syntax error: " ++ detail
  | none => "Schema syntax error"

/-- Why an import has no document. -/
inductive ImportFault where
  | notFound
  /-- The file at the path is there but cannot be read. -/
  | unreadableFile (path reason : String)
  | syntaxError (error : SyntaxError)
deriving DecidableEq, Repr

/-- The wording of an import fault. -/
def ImportFault.message : ImportFault → String
  | .notFound => "not found in any import location"
  | .unreadableFile path reason => s!"{path}: {reason}"
  | .syntaxError error => error.message

/-- What kind of definition a name belongs to. -/
inductive DefinitionKind where
  | prefixUri
  | typeDefinition
  | classDefinition
  /-- A name that stands for a type and for a class. -/
  | name
deriving DecidableEq, Repr

/-- The word for a kind of definition. -/
def DefinitionKind.word : DefinitionKind → String
  | .prefixUri => "prefix"
  | .typeDefinition => "type"
  | .classDefinition => "class"
  | .name => "name"

/-- How two definitions of one name differ. -/
inductive Disagreement where
  | prefixes (left right : String)
  | parentType (left right : Option String)
  | parentClass
  | attributes
  | attributeName (left right : String)
  | attributeShape (name : String)
  /-- Two URIs that are given for the same thing; `subject` says what they are URIs of. -/
  | uris (subject left right : String)
deriving DecidableEq, Repr

/-- The wording of a parent type. -/
def parentTypeText (parent : Option String) : String :=
  parent.getD "(built-in)"

/-- The wording of a disagreement. -/
def Disagreement.message : Disagreement → String
  | .prefixes left right => s!"'{left}' vs '{right}'"
  | .parentType left right => s!"typeof {parentTypeText left} vs {parentTypeText right}"
  | .parentClass => "different parent class"
  | .attributes => "different attributes"
  | .attributeName left right => s!"attribute '{left}' vs '{right}'"
  | .attributeShape name => s!"attribute '{name}' has a different range or cardinality"
  | .uris subject left right => s!"{subject} '{left}' vs '{right}'"

/-- Why two definitions cannot stand together. -/
inductive ConflictCause where
  /-- Two sources define a name differently; `source` is the id of the second one. -/
  | merge (disagreement : Disagreement) (source : String)
  | builtinKind (builtin declared : ScalarKind)
  | typeCycle (name : String)
  | typeAndClass
deriving DecidableEq, Repr

/-- The wording of a conflict's cause. -/
def ConflictCause.message : ConflictCause → String
  | .merge disagreement source => s!"{disagreement.message} in {source}"
  | .builtinKind builtin declared =>
    s!"built-in kind is {builtin.name}, schema declares {declared.name}"
  | .typeCycle name => s!"typeof cycle through '{name}'"
  | .typeAndClass => "declared both as a type and as a class"

/-- Why a document cannot be read, merged or resolved. -/
inductive SchemaError where
  | syntaxError (error : SyntaxError)
  | importError (identifier : String) (fault : ImportFault)
  | conflict (kind : DefinitionKind) (name : String) (cause : ConflictCause)
  | unknownRange (range owner : String) (suggestion? : Option String)
  | unresolvedRange (owner : String)
  | unknownPrefix (name curie : String)
deriving DecidableEq, Repr

/-- The wording of a suggestion after an unknown range. -/
def suggestionText : Option String → String
  | some suggestion => s!" (did you mean '{suggestion}'?)"
  | none => ""

/-- The wording of an error. -/
def SchemaError.message : SchemaError → String
  | .syntaxError error => error.message
  | .importError identifier fault => s!"Cannot resolve import '{identifier}': {fault.message}"
  | .conflict kind name cause => s!"Conflicting definitions for {kind.word} '{name}': {cause.message}"
  | .unknownRange range owner suggestion? =>
    s!"Unknown range '{range}' on {owner}{suggestionText suggestion?}"
  | .unresolvedRange owner =>
    s!"Attribute {owner} has no range and the schema declares no default_range"
  | .unknownPrefix name curie => s!"Unknown prefix '{name}' in '{curie}'"

end ClassSchema
