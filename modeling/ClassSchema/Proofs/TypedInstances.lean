import ClassSchema.Document.Reader
import ClassSchema.Proofs.Constructions

/-! # Constructed instances are typed

Construction goes on after a fault, with null in the place of the value. None of these nulls is left in an
instance that is returned: wherever an object stands in it, at any depth, the object has exactly the attributes
of its class, in their order, each with a value of the range that the attribute has. Whoever reads an instance
may rely on that, as the accessors and the writers do.
-/

namespace ClassSchema

/-- Whether a value stands somewhere in a value, be it the whole. -/
inductive Value.Occurs (inner : Value) : Value → Prop
  | here : Occurs inner inner
  | item {items : List Value} {item : Value} (member : item ∈ items) (inside : Occurs inner item) :
      Occurs inner (.list items)
  | field {className name : String} {fields : List (String × Value)} {value : Value}
      (member : (name, value) ∈ fields) (inside : Occurs inner value) : Occurs inner (.object className fields)

/-- Whether a value is of a range: a scalar of the kind, or an instance of the class. -/
def Range.Holds : Range → Value → Prop
  | .scalar kind, value => kind.Holds value
  | .instanceOf className, value => ∃ fields, value = .object className fields

/-- What the value of an attribute is. -/
structure Field.Admits (field : Field) (value : Value) : Prop where
  required : field.required = true → value ≠ .null
  notEmpty : field.required = true → field.multivalued = true → value ≠ .list []
  single : field.multivalued = false → value ≠ .null → field.range.Holds value
  items : field.multivalued = true → value ≠ .null → ∃ items, value = .list items ∧
    ∀ item ∈ items, item ≠ .null ∧ (∀ inner, item ≠ .list inner) ∧ field.range.Holds item

/-- Whether attributes are those of a class, in the order of its field table, with the values that they must
have. -/
def ClassModel.Admits (model : ClassModel) (fields : Table Value) : Prop :=
  List.Forall₂ (fun field entry => entry.1 = field.name ∧ field.Admits entry.2) model.fields fields

/-- What holds of all that stands in an instance, the instance itself included. -/
structure Instance.IsTyped (model : ObjectModel) (instanceValue : Instance) : Prop where
  objects : ∀ className fields, Value.Occurs (.object className fields) instanceValue.toValue →
    ∃ classModel, model.class? className = some classModel ∧ classModel.Admits fields
  uris : ∀ uri, Value.Occurs (.uri uri) instanceValue.toValue →
    uri ≠ "" ∧ ∀ c ∈ uri.toList, Text.isBlank c = false

variable {model : ObjectModel}

theorem isUriText_iff {text : String} :
    isUriText text = true ↔ text ≠ "" ∧ ∀ c ∈ text.toList, Text.isBlank c = false := by
  simp [isUriText]

theorem itemsMeet_iff {range : Range} {items : List Value} :
    ItemsMeet model range items ↔ ∀ item ∈ items, ValueMeets model range.single item := by
  induction items with
  | nil => exact iff_of_true .nil (by simp)
  | cons item rest ih =>
    rw [List.forall_mem_cons, ← ih]
    constructor
    · intro meets
      cases meets with
      | cons first others => exact ⟨first, others⟩
    · rintro ⟨first, others⟩
      exact .cons first others

theorem fieldsMeet_iff {fields : List Field} {attributes : List (String × Value)} :
    FieldsMeet model fields attributes ↔
      List.Forall₂ (fun field entry => entry.1 = field.name ∧
        ValueMeets model field.constraint.toValueConstraint entry.2) fields attributes := by
  constructor
  · intro meets
    induction fields generalizing attributes with
    | nil => cases meets; exact .nil
    | cons field rest ih =>
      cases meets with
      | cons first others => exact .cons ⟨rfl, first⟩ (ih others)
  · intro each
    induction each with
    | nil => exact .nil
    | @cons field entry _ _ first _ ih =>
      obtain ⟨name, value⟩ := entry
      obtain ⟨rfl, first⟩ := first
      exact .cons first ih

/-- What stands in a value that meets a constraint meets one itself. -/
theorem ValueMeets.of_occurs {constraint : ValueConstraint} {inner outer : Value}
    (meets : ValueMeets model constraint outer) (occurs : inner.Occurs outer) :
    ∃ own, ValueMeets model own inner := by
  -- A scalar has no parts, so a part stands in a list or in an object, whose constraint asks for the part.
  induction occurs generalizing constraint with
  | here => exact ⟨constraint, meets⟩
  | item member _ ih =>
    cases meets with
    | @scalar kind _ _ holds => cases kind <;> cases holds
    | list _ each => exact ih (itemsMeet_iff.mp each _ member)
  | field member _ ih =>
    cases meets with
    | @scalar kind _ _ holds => cases kind <;> cases holds
    | object _ each =>
      obtain ⟨field, _, _, meets⟩ := exists_of_mem_forall₂ (fieldsMeet_iff.mp each) member
      exact ih meets

/-- A value that meets a constraint for a single one is of the range. -/
theorem ValueMeets.holds {range : Range} {required : Bool} {value : Value}
    (meets : ValueMeets model ⟨range, false, required⟩ value) (given : value ≠ .null) : range.Holds value := by
  cases meets with
  | null => exact absurd rfl given
  | scalar holds => exact holds
  | object => exact ⟨_, rfl⟩

/-- A value that meets the constraint of a field is one that the field admits. -/
theorem ValueMeets.admits {field : Field} {value : Value}
    (meets : ValueMeets model field.constraint.toValueConstraint value) : field.Admits value := by
  obtain ⟨name, range, multivalued, required, identifier, description?⟩ := field
  change ValueMeets model ⟨range, multivalued, required⟩ value at meets
  cases multivalued with
  | false =>
    constructor
    · rintro rfl
      exact meets.single.1
    · exact fun _ => nofun
    · intro _ given
      exact meets.holds given
    · exact nofun
  | true =>
    cases meets with
    | null => exact ⟨nofun, nofun, nofun, fun _ given => absurd rfl given⟩
    | @list _ _ items notEmpty each =>
      constructor
      · exact fun _ => nofun
      · intro isRequired _ empty
        exact notEmpty isRequired (Value.list.inj empty)
      · exact nofun
      · intro _ _
        refine ⟨items, rfl, ?_⟩
        intro item member
        have meets := itemsMeet_iff.mp each item member
        exact ⟨meets.single.1, meets.single.2, meets.holds meets.single.1⟩

theorem FieldsMeet.admits {classModel : ClassModel} {fields : Table Value}
    (meets : FieldsMeet model classModel.fields fields) : classModel.Admits fields := by
  apply (fieldsMeet_iff.mp meets).imp
  rintro field entry ⟨sameName, meets⟩
  exact ⟨sameName, meets.admits⟩

/-- An instance whose fields are met is typed, and so is all that stands in it. -/
theorem Instance.isTyped_of_fieldsMeet {instanceValue : Instance} {classModel : ClassModel}
    (found : model.class? instanceValue.className = some classModel)
    (meets : FieldsMeet model classModel.fields instanceValue.fields) : instanceValue.IsTyped model := by
  have whole : ValueMeets model (Range.single (.instanceOf instanceValue.className)) instanceValue.toValue :=
    .object found meets
  constructor
  · intro className fields occurs
    obtain ⟨_, meets⟩ := whole.of_occurs occurs
    cases meets with
    | @scalar kind _ _ holds => cases kind <;> cases holds
    | object found each => exact ⟨_, found, each.admits⟩
  · intro uri occurs
    obtain ⟨_, meets⟩ := whole.of_occurs occurs
    cases meets with
    | @scalar kind _ _ holds =>
      cases kind with
      | uri => exact isUriText_iff.mp holds
      | _ => cases holds

/-- Every instance that is constructed for a class of a generated object model is typed. -/
theorem ObjectModel.isTyped_of_constructClass {document : Document} (modelled : ofDocument document = .ok model)
    {mode : CoercionMode} {className : String} {classModel : ClassModel}
    (found : model.class? className = some classModel) {entries : Table Data} {instanceValue : Instance}
    (constructed : model.constructClass mode classModel entries = .ok instanceValue) :
    instanceValue.className = className ∧ instanceValue.IsTyped model := by
  obtain ⟨sameName, meets⟩ := meets_of_constructClass model mode (wellFormed_of_ofDocument modelled) found
    constructed
  refine ⟨sameName, ?_⟩
  rw [← sameName] at found
  exact Instance.isTyped_of_fieldsMeet found meets

/-- An album has pictures, and a picture has a page and perhaps a place in the album. -/
def Document.album : Document :=
  { blank with
    id := "https://example.org/album"
    name := "album"
    classes :=
      [("Album", ⟨"Album", none, none, none, [⟨"pictures", "Picture", true, true, false, none, none⟩]⟩),
       ("Picture", ⟨"Picture", none, none, none,
        [⟨"page", "uri", false, false, true, none, none⟩, ⟨"place", "integer", false, false, false, none, none⟩]⟩)] }

/-- The field of an album for its pictures. -/
def Field.pictures : Field :=
  ⟨"pictures", .instanceOf "Picture", true, true, false, none⟩

/-- The field table of an album. -/
def ClassModel.album : ClassModel :=
  ⟨"Album", none, [.pictures]⟩

/-- The field table of a picture. -/
def ClassModel.picture : ClassModel :=
  ⟨"Picture", none,
    [⟨"page", .scalar .uri, false, true, true, none⟩, ⟨"place", .scalar .integer, false, false, false, none⟩]⟩

/-- The object model of albums. -/
def ObjectModel.album : ObjectModel :=
  ⟨"album", [("Album", .album), ("Picture", .picture)]⟩

theorem ObjectModel.ofDocument_album : ofDocument .album = .ok album := by
  rfl

/-- Two pictures, one without place. -/
def Data.pictures : Table Data :=
  [("pictures", .list
    [.map [("place", .number "1"), ("page", .text "ex:sea")], .map [("page", .text "ex:moon")]])]

theorem ObjectModel.isTyped_of_constructClass_album : ∃ model classModel instanceValue,
    ofDocument .album = .ok model ∧ model.class? "Album" = some classModel ∧
      model.constructClass .typed classModel Data.pictures = .ok instanceValue ∧
        instanceValue.className = "Album" ∧ instanceValue.IsTyped model := by
  have success : ((ofDocument .album).toOption.bind fun model => (model.class? "Album").map fun classModel =>
      (model.constructClass .typed classModel Data.pictures).isOk) = some true := by decide +kernel
  cases modelled : ofDocument .album with
  | error error => simp [modelled, Except.toOption] at success
  | ok model =>
    simp only [modelled, Except.toOption, Option.bind_some, Option.map_eq_some_iff] at success
    obtain ⟨classModel, found, isOk⟩ := success
    obtain ⟨instanceValue, constructed⟩ := exists_eq_ok_of_isOk isOk
    exact ⟨model, classModel, instanceValue, rfl, found, constructed,
      isTyped_of_constructClass modelled found constructed⟩

end ClassSchema
