import ClassSchema.ScalarKind

/-! # Render profiles

A render profile says how the structs of a schema are spelled in Rust: the type of each scalar kind, the
derives, and how names that are keywords are escaped.
-/

namespace ClassSchema

/-- The type that values of each kind have. -/
structure TypeNames where
  string : String := "String"
  integer : String := "num_bigint::BigInt"
  decimal : String := "bigdecimal::BigDecimal"
  boolean : String := "bool"
  date : String := "chrono::NaiveDate"
  uri : String := "String"
deriving DecidableEq, Repr, Inhabited

/-- The spelling of structs. -/
structure RenderProfile where
  types : TypeNames := {}
  /-- The traits that every struct derives. -/
  derives : List String := ["Debug", "Clone", "PartialEq"]
  /-- What stands in front of names that are keywords. -/
  keywordEscape : String := "r#"
deriving DecidableEq, Repr, Inhabited

/-- The keywords that may not be raw identifiers. -/
def pathKeywords : List String := ["self", "Self", "crate", "super"]

/-- The other keywords. -/
def keywords : List String :=
  ["as", "break", "const", "continue", "else", "enum", "extern", "false", "fn", "for", "if", "impl", "in",
   "let", "loop", "match", "mod", "move", "mut", "pub", "ref", "return", "static", "struct", "trait", "true",
   "type", "unsafe", "use", "where", "while", "async", "await", "dyn", "abstract", "become", "box", "do",
   "final", "macro", "override", "priv", "typeof", "unsized", "virtual", "yield", "try"]

/-- The type of a kind. -/
def TypeNames.ofKind (types : TypeNames) : ScalarKind → String
  | .string => types.string
  | .integer => types.integer
  | .decimal => types.decimal
  | .boolean => types.boolean
  | .date => types.date
  | .uri => types.uri

/-- A name that is no keyword: keywords are escaped, and those that cannot be get an underscore. -/
def RenderProfile.escapeKeyword (profile : RenderProfile) (name : String) : String :=
  if pathKeywords.contains name then name ++ "_"
  else if keywords.contains name then profile.keywordEscape ++ name
  else name

end ClassSchema
