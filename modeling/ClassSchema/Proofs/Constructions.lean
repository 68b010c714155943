import ClassSchema.Proofs.Conformance

/-! # What construction makes

Construction without fault, as a relation between data and values. It follows the field tables and says of every
place which data the value there comes from, with no word on paths and faults. So what is made meets the
constraint that it is made for.
-/

namespace ClassSchema

namespace ObjectModel

mutual

/-- Whether a value is made of the data that is given where a constraint asks for it. -/
inductive Makes (model : ObjectModel) (mode : CoercionMode) : ValueConstraint → Data → Value → Prop
  | null {range : Range} {multivalued : Bool} : Makes model mode ⟨range, multivalued, false⟩ .null .null
  | scalar {kind : ScalarKind} {required : Bool} {data : Data} {value : Value}
      (coerced : coerceScalar mode kind data = .ok value) :
      Makes model mode ⟨.scalar kind, false, required⟩ data value
  | object {className : String} {required : Bool} {classModel : ClassModel} {entries : Table Data}
      {attributes : List (String × Value)} (found : model.class? className = some classModel)
      (known : ∀ entry ∈ entries, (classModel.field? entry.1).isSome = true)
      (each : MakesFields model mode entries classModel.fields attributes) :
      Makes model mode ⟨.instanceOf className, false, required⟩ (.map entries) (.object className attributes)
  | list {range : Range} {required : Bool} {items : List Data} {values : List Value}
      (given : required = true → items ≠ []) (each : MakesItems model mode range items values) :
      Makes model mode ⟨range, true, required⟩ (.list items) (.list values)

/-- Whether values are made of items, one by one. -/
inductive MakesItems (model : ObjectModel) (mode : CoercionMode) : Range → List Data → List Value → Prop
  | nil {range : Range} : MakesItems model mode range [] []
  | cons {range : Range} {item : Data} {items : List Data} {value : Value} {values : List Value}
      (first : Makes model mode range.single item value) (others : MakesItems model mode range items values) :
      MakesItems model mode range (item :: items) (value :: values)

/-- Whether attributes are made of the entries of an object, one for each field. -/
inductive MakesFields (model : ObjectModel) (mode : CoercionMode) :
    Table Data → List Field → List (String × Value) → Prop
  | nil {entries : Table Data} : MakesFields model mode entries [] []
  | absent {entries : Table Data} {field : Field} {fields : List Field} {attributes : List (String × Value)}
      (missing : entries.get? field.name = none) (optional : field.required = false)
      (others : MakesFields model mode entries fields attributes) :
      MakesFields model mode entries (field :: fields) ((field.name, .null) :: attributes)
  | given {entries : Table Data} {field : Field} {fields : List Field} {attributes : List (String × Value)}
      {data : Data} {value : Value} (read : entries.get? field.name = some data)
      (first : Makes model mode field.constraint.toValueConstraint data value)
      (others : MakesFields model mode entries fields attributes) :
      MakesFields model mode entries (field :: fields) ((field.name, value) :: attributes)

end

/-- Null is coerced to no scalar. -/
theorem ne_null_of_coerceScalar {mode : CoercionMode} {kind : ScalarKind} {data : Data} {value : Value}
    (coerced : coerceScalar mode kind data = .ok value) : data ≠ .null := by
  rintro rfl
  have refused := coerces_null mode (.scalar kind)
  rw [Range.coerces, coerced] at refused
  cases refused

variable (model : ObjectModel) (mode : CoercionMode)

/-- What a field is made of: nothing where none is required, or the data under its name. -/
def MakesField (entries : Table Data) (field : Field) (value : Value) : Prop :=
  (entries.get? field.name = none ∧ field.required = false ∧ value = .null) ∨
    ∃ data, entries.get? field.name = some data ∧
      Makes model mode field.constraint.toValueConstraint data value

variable {model mode}

/-- Null is made of null, and of nothing else. -/
theorem Makes.eq_null_iff {constraint : ValueConstraint} {data : Data} {value : Value}
    (makes : Makes model mode constraint data value) : value = .null ↔ data = .null := by
  cases makes with
  | null => simp
  | @scalar kind _ _ _ coerced =>
    refine ⟨?_, fun isNull => absurd isNull (ne_null_of_coerceScalar coerced)⟩
    rintro rfl
    cases kind <;> cases ScalarKind.holds_of_coerceScalar coerced
  | object found known each => simp
  | list given each => simp

/-- Null is made only where nothing is required. -/
theorem Makes.optional_of_null {constraint : ValueConstraint} {data : Data}
    (makes : Makes model mode constraint data .null) : constraint.required = false := by
  have isNull := makes.eq_null_iff.mp rfl
  cases makes with
  | null => rfl
  | scalar coerced => exact absurd isNull (ne_null_of_coerceScalar coerced)

mutual

/-- What is made for a constraint meets it. -/
theorem Makes.meets : ∀ {constraint : ValueConstraint} {data : Data} {value : Value},
    Makes model mode constraint data value → ValueMeets model constraint value
  | _, _, _, .null => .null
  | _, _, _, .scalar coerced => .scalar (ScalarKind.holds_of_coerceScalar coerced)
  | _, _, _, .object found _ each => .object found each.meets
  | _, _, _, .list given each => by
    refine .list (fun required nothing => given required ?_) each.meets
    subst nothing
    cases each
    rfl

/-- What is made of items is single values. -/
theorem MakesItems.meets : ∀ {range : Range} {items : List Data} {values : List Value},
    MakesItems model mode range items values → ItemsMeet model range values
  | _, _, _, .nil => .nil
  | _, _, _, .cons first others => .cons first.meets others.meets

/-- Attributes that are made are what the fields ask for. -/
theorem MakesFields.meets : ∀ {entries : Table Data} {fields : List Field} {attributes : List (String × Value)},
    MakesFields model mode entries fields attributes → FieldsMeet model fields attributes
  | _, _, _, .nil => .nil
  | _, _, _, @MakesFields.absent _ _ _ ⟨name, range, multivalued, required, identifier, description?⟩ _ _ _
      optional others => by
    cases optional
    exact .cons .null others.meets
  | _, _, _, .given _ first others => .cons first.meets others.meets

end

theorem makesFields_of_each {entries : Table Data} {fields : List Field} (outcome : Field → Value)
    (each : ∀ field ∈ fields, MakesField model mode entries field (outcome field)) :
    MakesFields model mode entries fields (fields.map fun field => (field.name, outcome field)) := by
  induction fields with
  | nil => exact .nil
  | cons field rest ih =>
    obtain ⟨first, others⟩ := List.forall_mem_cons.mp each
    rcases first with ⟨missing, optional, isNull⟩ | ⟨data, read, makes⟩
    · rw [List.map_cons, isNull]
      exact .absent missing optional (ih others)
    · exact .given read makes (ih others)

/-- Data without parts makes a scalar. -/
theorem makes_constructSingle_of_noMap {data : Data} (noMap : ∀ entries, data ≠ .map entries) {range : Range}
    {path : String} (required : Bool) (faultless : (constructSingle model mode range path data).errors = []) :
    Makes model mode ⟨range, false, required⟩ data (constructSingle model mode range path data).value := by
  have coerces := (errors_constructSingle_of_noMap model mode noMap range path).mp faultless
  cases range with
  | instanceOf className => cases coerces
  | scalar kind =>
    simp only [constructSingle_of_noMap model mode noMap, Outcome.scalar] at faultless ⊢
    split
    · rename_i value coerced
      exact .scalar coerced
    · rename_i refused
      simp [refused, Outcome.fault] at faultless

/-- Data without parts makes one scalar for a field. -/
theorem makes_constructValue_of_leaf {data : Data} (given : data ≠ .null)
    (noList : ∀ items, data ≠ .list items) (noMap : ∀ entries, data ≠ .map entries) {field : Field}
    {path : String} (faultless : (constructValue model mode field path data).errors = []) :
    Makes model mode field.constraint.toValueConstraint data
      (constructValue model mode field path data).value := by
  obtain ⟨name, range, multivalued, required, identifier, description?⟩ := field
  have taken := (errors_constructValue_of_leaf model mode given noList noMap _ path).mp faultless
  cases multivalued with
  | true => cases taken
  | false =>
    rw [constructValue_of_single model mode path rfl given] at faultless ⊢
    exact makes_constructSingle_of_noMap noMap required faultless

mutual

/-- What is constructed for a field without fault is made of the data. -/
theorem makes_constructValue (wellFormed : model.WellFormed) : ∀ (data : Data) (field : Field) (path : String),
    (constructValue model mode field path data).errors = [] →
      Makes model mode field.constraint.toValueConstraint data
        (constructValue model mode field path data).value
  | .null, ⟨name, range, multivalued, required, identifier, description?⟩, path, faultless => by
    have optional := (Outcome.errors_absent_eq_nil_iff _ path).mp faultless
    cases optional
    exact .null
  | .bool value, field, path, faultless =>
    makes_constructValue_of_leaf (by simp) (by simp) (by simp) faultless
  | .number literal, field, path, faultless =>
    makes_constructValue_of_leaf (by simp) (by simp) (by simp) faultless
  | .text value, field, path, faultless =>
    makes_constructValue_of_leaf (by simp) (by simp) (by simp) faultless
  | .list items, ⟨name, range, multivalued, required, identifier, description?⟩, path, faultless => by
    cases multivalued with
    | false => exact makes_constructSingle_of_noMap (by simp) required faultless
    | true =>
      have each := makes_constructItems wellFormed items range path 0
      simp only [constructValue, if_true] at faultless ⊢
      split
      · rename_i missing
        simp [missing] at faultless
      · rename_i given
        simp only [given, Bool.false_eq_true, if_false, Outcome.list, List.flatMap_eq_nil_iff] at faultless
        refine .list (fun needed nothing => given ?_) (each faultless)
        rw [nothing]
        exact needed
  | .map entries, ⟨name, range, multivalued, required, identifier, description?⟩, path, faultless => by
    cases multivalued with
    | true => simp [constructValue, Outcome.fault] at faultless
    | false => exact makes_constructMap wellFormed entries range required path faultless

/-- What is constructed of an object without fault is made of it. -/
theorem makes_constructMap (wellFormed : model.WellFormed) : ∀ (entries : List (String × Data)) (range : Range)
    (required : Bool) (path : String), (constructSingle model mode range path (.map entries)).errors = [] →
      Makes model mode ⟨range, false, required⟩ (.map entries)
        (constructSingle model mode range path (.map entries)).value
  | entries, .scalar kind, required, path, faultless => by
    simp only [constructSingle, Outcome.scalar] at faultless ⊢
    split
    · rename_i value coerced
      exact .scalar coerced
    · rename_i refused
      simp [refused, Outcome.fault] at faultless
  | entries, .instanceOf className, required, path, faultless => by
    cases found : model.class? className with
    | none => simp [constructSingle, found, Outcome.noInstance, Outcome.fault] at faultless
    | some classModel =>
      obtain ⟨known, fields⟩ := (errors_constructSingle_map_eq_nil_iff model mode found path entries).mp faultless
      simp only [constructSingle, found, Outcome.fields, List.map_map, wellFormed.named found]
      exact .object found known (makesFields_of_each _ fun field isField =>
        makes_constructField wellFormed entries field _ (fields field isField))

/-- What is constructed for a field without fault is made of what stands under its name. -/
theorem makes_constructField (wellFormed : model.WellFormed) : ∀ (entries : List (String × Data))
    (field : Field) (path : String), (constructField model mode field path entries).errors = [] →
      MakesField model mode entries field (constructField model mode field path entries).value
  | [], field, path, faultless => by
    have optional := (Outcome.errors_absent_eq_nil_iff field path).mp faultless
    exact .inl ⟨rfl, optional, by simp [constructField, Outcome.absent, optional]⟩
  | (key, data) :: rest, field, path, faultless => by
    rw [MakesField, Table.get?_cons]
    by_cases same : key = field.name
    · have read : constructField model mode field path ((key, data) :: rest) =
          constructValue model mode field path data := by
        rw [constructField_eq, Table.get?_cons, if_pos same]
      rw [read] at faultless ⊢
      rw [if_pos same]
      exact .inr ⟨data, rfl, makes_constructValue wellFormed data field path faultless⟩
    · have read : constructField model mode field path ((key, data) :: rest) =
          constructField model mode field path rest := by
        rw [constructField_eq, Table.get?_cons, if_neg same, ← constructField_eq]
      rw [read] at faultless ⊢
      rw [if_neg same]
      exact makes_constructField wellFormed rest field path faultless

/-- What is constructed of items without fault is made of them. -/
theorem makes_constructItems (wellFormed : model.WellFormed) : ∀ (items : List Data) (range : Range)
    (path : String) (index : Nat),
    (∀ outcome ∈ constructItems model mode range path index items, outcome.errors = []) →
      MakesItems model mode range items ((constructItems model mode range path index items).map Outcome.value)
  | [], range, path, index, _ => by
    rw [constructItems]
    exact .nil
  | item :: rest, range, path, index, faultless => by
    simp only [constructItems, List.forall_mem_cons] at faultless
    rw [constructItems]
    refine .cons ?_ (makes_constructItems wellFormed rest range path (index + 1) faultless.2)
    cases item with
    | map entries => exact makes_constructMap wellFormed entries range true _ faultless.1
    | _ => exact makes_constructSingle_of_noMap (by simp) true faultless.1

end

/-- A constructed instance is made of the entries. -/
theorem makes_of_constructClass (wellFormed : model.WellFormed) {className : String} {classModel : ClassModel}
    (found : model.class? className = some classModel) {entries : Table Data} {instanceValue : Instance}
    (constructed : constructClass model mode classModel entries = .ok instanceValue) :
    instanceValue.className = className ∧
      (∀ entry ∈ entries, (classModel.field? entry.1).isSome = true) ∧
      MakesFields model mode entries classModel.fields instanceValue.fields := by
  simp only [constructClass, List.isEmpty_iff] at constructed
  split at constructed
  · rename_i faultless
    cases constructed
    simp only [constructFields, Outcome.fields, List.append_eq_nil_iff, Outcome.unknownKeys_eq_nil_iff,
      List.flatMap_eq_nil_iff, List.forall_mem_map] at faultless
    refine ⟨wellFormed.named found, faultless.1, ?_⟩
    simp only [constructFields, Outcome.fields, List.map_map]
    exact makesFields_of_each _ fun field isField =>
      makes_constructField wellFormed entries field _ (faultless.2 field isField)
  · cases constructed

/-- A constructed instance has a value for each field of its class that the field asks for. -/
theorem meets_of_constructClass (model : ObjectModel) (mode : CoercionMode) (wellFormed : model.WellFormed)
    {className : String} {classModel : ClassModel} (found : model.class? className = some classModel)
    {entries : Table Data} {instanceValue : Instance}
    (constructed : constructClass model mode classModel entries = .ok instanceValue) :
    instanceValue.className = className ∧ FieldsMeet model classModel.fields instanceValue.fields := by
  obtain ⟨named, _, each⟩ := makes_of_constructClass wellFormed found constructed
  exact ⟨named, each.meets⟩

end ObjectModel

end ClassSchema
