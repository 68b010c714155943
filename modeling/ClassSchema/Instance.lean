import ClassSchema.Date
import ClassSchema.Number.Decimal
import ClassSchema.Table

/-! # Instances

An instance of a class has a value for each of the class's attributes, in their order; an attribute
without value is null. The values of a multivalued attribute are a list, and a value that is an instance
of another class is an object.
-/

namespace ClassSchema

/-- A typed value. -/
inductive Value where
  | null
  | text (value : String)
  | integer (value : Int)
  | decimal (value : Decimal)
  | boolean (value : Bool)
  | date (value : Date)
  | uri (value : String)
  | list (items : List Value)
  | object (className : String) (fields : List (String × Value))
deriving Inhabited, Repr

/-- An instance of a class. -/
structure Instance where
  className : String
  fields : Table Value
deriving Inhabited, Repr

namespace Value

/-- Whether there is no value. -/
def isNull : Value → Bool
  | .null => true
  | _ => false

/-- The instance that an object is. -/
def instance? : Value → Option Instance
  | .object className fields => some ⟨className, fields⟩
  | _ => none

/-- A truth value as text. -/
def boolText (value : Bool) : String :=
  if value then "true" else "false"

mutual

/-- A value as readers see it in messages, if each of its decimals can be written. -/
def display? : Value → Option String
  | .null => some "null"
  | .text value => some value
  | .integer value => some (toString value)
  | .decimal value => value.text?
  | .boolean value => some (boolText value)
  | .date value => some value.text
  | .uri value => some value
  | .list items => (displayItems? items).map fun items => "[" ++ ", ".intercalate items ++ "]"
  | .object className fields =>
    (displayFields? fields).map fun fields => className ++ "(" ++ ", ".intercalate fields ++ ")"

/-- Each item as readers see it. -/
def displayItems? : List Value → Option (List String)
  | [] => some []
  | item :: rest => do
    let item ← item.display?
    let rest ← displayItems? rest
    return item :: rest

/-- Each attribute that has a value as readers see it. -/
def displayFields? : List (String × Value) → Option (List String)
  | [] => some []
  | (name, value) :: rest =>
    if value.isNull then displayFields? rest
    else do
      let value ← value.display?
      let rest ← displayFields? rest
      return (name ++ "=" ++ value) :: rest

end

mutual

/-- Whether two values are the same. Decimals are compared by value and not by scale, objects by the
values of their attributes and not by the order of these. -/
def same : Value → Value → Bool
  | .null, .null => true
  | .text left, .text right => left == right
  | .integer left, .integer right => left == right
  | .decimal left, .decimal right => left.sameValue right
  | .boolean left, .boolean right => left == right
  | .date left, .date right => left == right
  | .uri left, .uri right => left == right
  | .list left, .list right => sameItems left right
  | .object leftClass left, .object rightClass right =>
    leftClass == rightClass && left.length == right.length && sameFields left right
  | _, _ => false

/-- Whether items are the same, one by one. -/
def sameItems : List Value → List Value → Bool
  | [], [] => true
  | left :: lefts, right :: rights => left.same right && sameItems lefts rights
  | _, _ => false

/-- Whether each attribute has the same value in a table. -/
def sameFields : List (String × Value) → Table Value → Bool
  | [], _ => true
  | (name, value) :: rest, table =>
    match table.get? name with
    | some other => value.same other && sameFields rest table
    | none => false

end

end Value

namespace Instance

/-- The instance as a value. -/
def toValue (instanceValue : Instance) : Value :=
  .object instanceValue.className instanceValue.fields

/-- The value of an attribute, null if it has none; `none` if the class has no such attribute. -/
def get? (instanceValue : Instance) (name : String) : Option Value :=
  instanceValue.fields.get? name

/-- The instance as readers see it in messages, if each of its decimals can be written. -/
def display? (instanceValue : Instance) : Option String :=
  instanceValue.toValue.display?

/-- Whether two instances are the same. -/
def same (left right : Instance) : Bool :=
  left.toValue.same right.toValue

/-- The text of an attribute, or its URI. -/
def text? (instanceValue : Instance) (name : String) : Option String :=
  match instanceValue.get? name with
  | some (.text value) => some value
  | some (.uri value) => some value
  | _ => none

/-- The URI of an attribute. -/
def uri? (instanceValue : Instance) (name : String) : Option String :=
  match instanceValue.get? name with
  | some (.uri value) => some value
  | _ => none

/-- The integer of an attribute. -/
def integer? (instanceValue : Instance) (name : String) : Option Int :=
  match instanceValue.get? name with
  | some (.integer value) => some value
  | _ => none

/-- The decimal of an attribute. -/
def decimal? (instanceValue : Instance) (name : String) : Option Decimal :=
  match instanceValue.get? name with
  | some (.decimal value) => some value
  | _ => none

/-- The truth value of an attribute. -/
def boolean? (instanceValue : Instance) (name : String) : Option Bool :=
  match instanceValue.get? name with
  | some (.boolean value) => some value
  | _ => none

/-- The date of an attribute. -/
def date? (instanceValue : Instance) (name : String) : Option Date :=
  match instanceValue.get? name with
  | some (.date value) => some value
  | _ => none

/-- The list of an attribute. -/
def list? (instanceValue : Instance) (name : String) : Option (List Value) :=
  match instanceValue.get? name with
  | some (.list items) => some items
  | _ => none

/-- The instance that is the value of an attribute. -/
def object? (instanceValue : Instance) (name : String) : Option Instance :=
  (instanceValue.get? name).bind Value.instance?

end Instance

end ClassSchema
