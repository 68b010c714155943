import ClassSchema.ScalarKind

/-! # Ranges

The range of an attribute says what its values are: scalars of a kind, or instances of a class.
-/

namespace ClassSchema

/-- What the values of an attribute are. -/
inductive Range where
  | scalar (kind : ScalarKind)
  | instanceOf (className : String)
deriving DecidableEq, Repr, Inhabited

namespace Range

/-- The kind of a scalar range. -/
def kind? : Range → Option ScalarKind
  | .scalar kind => some kind
  | .instanceOf _ => none

/-- The class of a range of instances. -/
def className? : Range → Option String
  | .scalar _ => none
  | .instanceOf className => some className

/-- The name of the kind or of the class. -/
def text : Range → String
  | .scalar kind => kind.name
  | .instanceOf className => className

end Range

end ClassSchema
