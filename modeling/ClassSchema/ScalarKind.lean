/-! # Scalar kinds

Every scalar range stands for one of six kinds. The built-in type names are the only place where names
of types meet kinds.
-/

namespace ClassSchema

/-- What a scalar value is. -/
inductive ScalarKind where
  | string
  | integer
  /-- A decimal number of any precision. -/
  | decimal
  | boolean
  | date
  | uri
deriving DecidableEq, Repr, Inhabited

namespace ScalarKind

/-- The name of a kind. -/
def name : ScalarKind → String
  | .string => "string"
  | .integer => "integer"
  | .decimal => "decimal"
  | .boolean => "boolean"
  | .date => "date"
  | .uri => "uri"

/-- Whether values of the kind are written as number literals. -/
def isNumeric : ScalarKind → Bool
  | .integer | .decimal => true
  | _ => false

end ScalarKind

/-- The built-in type names and their kinds, in order. -/
def builtinTypes : List (String × ScalarKind) :=
  [("string", .string), ("integer", .integer), ("decimal", .decimal), ("boolean", .boolean),
   ("date", .date), ("uri", .uri), ("uriorcurie", .uri)]

/-- The kind of a built-in type name. -/
def builtinKind? (name : String) : Option ScalarKind :=
  builtinTypes.lookup name

end ClassSchema
