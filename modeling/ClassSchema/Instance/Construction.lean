import ClassSchema.Instance.Coercion
import ClassSchema.Instance.Model

/-! # Construction

An instance is constructed from a map of untyped data along the field table of its class. Every fault is
collected, each with the path of the attribute that it is about: first the keys that are no attributes,
then the attributes in the order of the table. Attributes at fault are null in the outcome, and only an
outcome without faults is an instance.
-/

namespace ClassSchema

/-- What was expected where data is at fault. -/
inductive Expected where
  | scalar (kind : ScalarKind)
  | instanceOf (className : String)
  | list
  | present
  | declared
deriving DecidableEq, Repr

/-- The wording of what was expected. -/
def Expected.text : Expected → String
  | .scalar kind => kind.name
  | .instanceOf className => "instance of " ++ className
  | .list => "list"
  | .present => "a value"
  | .declared => "a declared attribute"

/-- A fault of the data for one attribute. -/
structure CoercionError where
  /-- The names of attributes from the outermost on, with points between them and list positions in
  brackets. -/
  path : String
  expected : Expected
  /-- The data as messages show it. -/
  raw : String
  reason : CoercionReason
deriving DecidableEq, Repr

/-- The wording of a fault. -/
def CoercionError.message (error : CoercionError) : String :=
  s!"{error.path}: expected {error.expected.text}, got {error.raw} ({error.reason.message})"

/-- All faults of the data for one instance. -/
structure ConstructionError where
  className : String
  errors : List CoercionError
deriving DecidableEq, Repr

namespace ConstructionError

/-- The wording of the faults together. -/
def message (error : ConstructionError) : String :=
  s!"cannot construct {error.className}: {error.errors.length} invalid value(s): " ++
    "; ".intercalate (error.errors.map CoercionError.message)

/-- The paths of the faults. -/
def paths (error : ConstructionError) : List String :=
  error.errors.map CoercionError.path

end ConstructionError

/-- The path of an attribute of what stands at a path. -/
def joinPath (path name : String) : String :=
  if path.isEmpty then name else path ++ "." ++ name

/-- The path of an item of the list that stands at a path. -/
def itemPath (path : String) (index : Nat) : String :=
  s!"{path}[{index}]"

/-- What construction makes of data, together with the faults that were found. -/
structure Outcome (α : Type) where
  value : α
  errors : List CoercionError
deriving Repr

namespace Outcome

/-- Null, with one fault. -/
def fault (error : CoercionError) : Outcome Value :=
  ⟨.null, [error]⟩

/-- A list of what stands at its places. -/
def list (items : List (Outcome Value)) : Outcome Value :=
  ⟨.list (items.map Outcome.value), items.flatMap Outcome.errors⟩

/-- The attributes of an instance, with the faults of keys that are no attributes in front. -/
def fields (unknown : List CoercionError) (outcomes : List (String × Outcome Value)) :
    Outcome (Table Value) :=
  ⟨outcomes.map fun (name, outcome) => (name, outcome.value),
    unknown ++ outcomes.flatMap fun (_, outcome) => outcome.errors⟩

/-- An attribute without value, which is a fault where one is required. -/
def absent (field : Field) (path : String) : Outcome Value :=
  if field.required then fault ⟨path, .present, "null", .missing⟩ else ⟨.null, []⟩

/-- A scalar from data. -/
def scalar (mode : CoercionMode) (kind : ScalarKind) (path : String) (data : Data) : Outcome Value :=
  match coerceScalar mode kind data with
  | .ok value => ⟨value, []⟩
  | .error reason => fault ⟨path, .scalar kind, data.describe, reason⟩

/-- The faults of keys that are no attributes of a class. -/
def unknownKeys (model : ClassModel) (path : String) (entries : List (String × Data)) :
    List CoercionError :=
  entries.filterMap fun (key, data) =>
    if (model.field? key).isSome then none
    else some ⟨joinPath path key, .declared, data.describe, .noAttribute model.name key⟩

/-- The fault of data that is no map where an instance is expected. -/
def noInstance (model : ObjectModel) (className path : String) (data : Data) : Outcome Value :=
  match model.class? className with
  | none => fault ⟨path, .instanceOf className, data.describe, .undefinedClass⟩
  | some _ => fault ⟨path, .instanceOf className, data.describe, .notMapping data.typeName⟩

end Outcome

namespace ObjectModel

mutual

/-- A value of a range from data. -/
def constructSingle (model : ObjectModel) (mode : CoercionMode) (range : Range) (path : String) :
    Data → Outcome Value
  | .map entries =>
    match range with
    | .scalar kind => .scalar mode kind path (.map entries)
    | .instanceOf className =>
      match model.class? className with
      | none => .noInstance model className path (.map entries)
      | some classModel =>
        let outcomes := classModel.fields.map fun field =>
          (field.name, constructField model mode field (joinPath path field.name) entries)
        let fields := Outcome.fields (Outcome.unknownKeys classModel path entries) outcomes
        ⟨.object classModel.name fields.value, fields.errors⟩
  | data =>
    match range with
    | .scalar kind => .scalar mode kind path data
    | .instanceOf className => .noInstance model className path data

/-- Values of a range from the items of a list, from a position on. -/
def constructItems (model : ObjectModel) (mode : CoercionMode) (range : Range) (path : String)
    (index : Nat) : List Data → List (Outcome Value)
  | [] => []
  | item :: rest =>
    constructSingle model mode range (itemPath path index) item ::
      constructItems model mode range path (index + 1) rest

/-- The value of an attribute from the entries of a map. -/
def constructField (model : ObjectModel) (mode : CoercionMode) (field : Field) (path : String) :
    List (String × Data) → Outcome Value
  | [] => .absent field path
  | (key, data) :: rest =>
    if key = field.name then
      match data with
      | .null => .absent field path
      | .list items =>
        if field.multivalued then
          let outcome := Outcome.list (constructItems model mode field.range path 0 items)
          if items.isEmpty && field.required then
            ⟨outcome.value, ⟨path, .present, "[]", .missing⟩ :: outcome.errors⟩
          else outcome
        else constructSingle model mode field.range path (.list items)
      | data =>
        if field.multivalued then .fault ⟨path, .list, data.describe, .needsList⟩
        else constructSingle model mode field.range path data
    else constructField model mode field path rest

end

/-- The attributes of a class from the entries of a map. -/
def constructFields (model : ObjectModel) (mode : CoercionMode) (classModel : ClassModel)
    (entries : Table Data) : Outcome (Table Value) :=
  .fields (Outcome.unknownKeys classModel "" entries)
    (classModel.fields.map fun field =>
      (field.name, model.constructField mode field (joinPath "" field.name) entries))

/-- The instance of a class of the model from the entries of a map. -/
def constructClass (model : ObjectModel) (mode : CoercionMode) (classModel : ClassModel)
    (entries : Table Data) : Except ConstructionError Instance :=
  let outcome := model.constructFields mode classModel entries
  if outcome.errors.isEmpty then .ok ⟨classModel.name, outcome.value⟩
  else .error ⟨classModel.name, outcome.errors⟩

/-- The instance of a class from the entries of a map; a class that the model lacks is a fault too. -/
def construct (model : ObjectModel) (className : String) (entries : Table Data) :
    Except ConstructionError Instance :=
  match model.class? className with
  | some classModel => model.constructClass .lenient classModel entries
  | none => .error ⟨className, [⟨"", .instanceOf className, "", .undefinedClass⟩]⟩

end ObjectModel

end ClassSchema
