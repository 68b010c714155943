import ClassSchema.Block.Layout
import ClassSchema.Instance.Encoding

/-! # Instances as block text

Texts, URIs and dates are written between quotes, so they never look like another kind of scalar;
numbers and truth values are written plainly. Attributes that are null are left out.
-/

namespace ClassSchema

namespace Value

mutual

/-- A value that stands at a path, as a layout. -/
def toLayout (path : String) : Value → Except EncodingError Block.Layout
  | .null => .error (.nullInList path)
  | .text value => .ok (.quoted value)
  | .uri value => .ok (.quoted value)
  | .date value => .ok (.quoted value.text)
  | .integer value => .ok (.plain (toString value))
  | .decimal value => (decimalText value).map Block.Layout.plain
  | .boolean value => .ok (.plain (boolText value))
  | .list items => (itemsToLayout path 0 items).map .sequence
  | .object _ fields => (fieldsToLayout path fields).map .mapping

/-- Items from a position on, as layouts; a list may not be an item. -/
def itemsToLayout (path : String) (index : Nat) :
    List Value → Except EncodingError (List Block.Layout)
  | [] => .ok []
  | .list _ :: _ => .error (.nestedList (itemPath path index))
  | item :: rest => do
    let item ← item.toLayout (itemPath path index)
    let rest ← itemsToLayout path (index + 1) rest
    return item :: rest

/-- The attributes that have a value, as layouts. -/
def fieldsToLayout (path : String) :
    List (String × Value) → Except EncodingError (List (String × Block.Layout))
  | [] => .ok []
  | (name, value) :: rest =>
    if value.isNull then fieldsToLayout path rest
    else do
      let value ← value.toLayout (joinPath path name)
      let rest ← fieldsToLayout path rest
      return (name, value) :: rest

end

end Value

/-- The instance as block text. -/
def Instance.toBlockText (instanceValue : Instance) : Except EncodingError String :=
  (Value.fieldsToLayout "" instanceValue.fields).map Block.documentText

end ClassSchema
