import ClassSchema.Proofs.Constructions
import ClassSchema.Proofs.Dates
import ClassSchema.Proofs.DecimalText

/-! # Reconstruction

A value that is written as data and constructed again is the value with its decimals as they are read from
their written forms, provided that its scalars are spelled so that they coerce back. Attributes that are null
are left out of the data, and construction makes them null again. The lemma serves every format: only the
spelling of scalars and the mode differ.
-/

namespace ClassSchema

namespace Value

mutual

/-- The data of a value whose scalars are spelled by `spell`; attributes that are null are left out. -/
def toData (spell : Value → Data) : Value → Data
  | .list items => .list (itemsToData spell items)
  | .object _ fields => .map (fieldsToData spell fields)
  | value => spell value

/-- The data of items. -/
def itemsToData (spell : Value → Data) : List Value → List Data
  | [] => []
  | item :: rest => item.toData spell :: itemsToData spell rest

/-- The data of the attributes that have a value. -/
def fieldsToData (spell : Value → Data) : List (String × Value) → List (String × Data)
  | [] => []
  | (name, value) :: rest =>
    if value.isNull then fieldsToData spell rest
    else (name, value.toData spell) :: fieldsToData spell rest

end

mutual

/-- The decimals in a value. -/
def decimals : Value → List Decimal
  | .decimal value => [value]
  | .list items => itemsDecimals items
  | .object _ fields => fieldsDecimals fields
  | _ => []

/-- The decimals in items. -/
def itemsDecimals : List Value → List Decimal
  | [] => []
  | item :: rest => item.decimals ++ itemsDecimals rest

/-- The decimals in attributes. -/
def fieldsDecimals : List (String × Value) → List Decimal
  | [] => []
  | (_, value) :: rest => value.decimals ++ fieldsDecimals rest

end

mutual

/-- How deep lists and objects are nested in a value. -/
def depth : Value → Nat
  | .list items => itemsDepth items + 1
  | .object _ fields => fieldsDepth fields + 1
  | _ => 0

/-- How deep lists and objects are nested in items. -/
def itemsDepth : List Value → Nat
  | [] => 0
  | item :: rest => max item.depth (itemsDepth rest)

/-- How deep lists and objects are nested in attributes. -/
def fieldsDepth : List (String × Value) → Nat
  | [] => 0
  | (_, value) :: rest => max value.depth (fieldsDepth rest)

end

mutual

/-- The names that are written for a value: those of the attributes that are not null, however deep. -/
def writtenNames : Value → List String
  | .list items => itemsWrittenNames items
  | .object _ fields => fieldsWrittenNames fields
  | _ => []

/-- The names that are written for items. -/
def itemsWrittenNames : List Value → List String
  | [] => []
  | item :: rest => item.writtenNames ++ itemsWrittenNames rest

/-- The names that are written for attributes. -/
def fieldsWrittenNames : List (String × Value) → List String
  | [] => []
  | (name, value) :: rest =>
    if value.isNull then fieldsWrittenNames rest
    else name :: (value.writtenNames ++ fieldsWrittenNames rest)

end

mutual

/-- A value with its decimals as they are read from their written forms. -/
def written : Value → Value
  | .decimal value => .decimal value.written
  | .list items => .list (itemsWritten items)
  | .object className fields => .object className (fieldsWritten fields)
  | value => value

/-- Items with their decimals as they are read from their written forms. -/
def itemsWritten : List Value → List Value
  | [] => []
  | item :: rest => item.written :: itemsWritten rest

/-- Attributes with their decimals as they are read from their written forms. -/
def fieldsWritten : List (String × Value) → List (String × Value)
  | [] => []
  | (name, value) :: rest => (name, value.written) :: fieldsWritten rest

end

theorem fieldsWritten_eq_map (fields : List (String × Value)) :
    fieldsWritten fields = fields.map fun attr => (attr.1, attr.2.written) := by
  induction fields with
  | nil => rfl
  | cons attr rest ih => rw [fieldsWritten, ih, List.map_cons]

/-- Whether the scales of a value's decimals are above the least of 64 bits, whose negation does not fit. -/
def HasWritableScales (value : Value) : Prop :=
  ∀ decimal ∈ value.decimals, wordMin < decimal.scale

/-- The data of an attribute's value, if it has one. -/
def toData? (spell : Value → Data) (value : Value) : Option Data :=
  if value.isNull then none else some (value.toData spell)

theorem ne_null_of_isNull {value : Value} (given : ¬ value.isNull = true) : value ≠ .null := by
  rintro rfl
  exact given rfl

theorem toData?_of_ne_null (spell : Value → Data) {value : Value} (given : value ≠ .null) :
    value.toData? spell = some (value.toData spell) := by
  cases value <;> first | rfl | exact absurd rfl given

/-- A scalar is written as it is spelled. -/
theorem toData_of_holds (spell : Value → Data) {kind : ScalarKind} {value : Value} (holds : kind.Holds value) :
    value ≠ .null ∧ value.toData spell = spell value := by
  cases value with
  | list items => cases kind <;> cases holds
  | object className fields => cases kind <;> cases holds
  | null => cases kind <;> cases holds
  | _ => exact ⟨by simp, by rw [toData] <;> simp⟩

theorem keys_fieldsToData_sublist (spell : Value → Data) (fields : List (String × Value)) :
    (Table.keys (fieldsToData spell fields)).Sublist (Table.keys fields) := by
  induction fields with
  | nil => exact .slnil
  | cons attr rest ih =>
    obtain ⟨name, value⟩ := attr
    rw [fieldsToData]
    split
    · exact ih.cons name
    · exact ih.cons_cons name

/-- The names of the data's entries are written ones. -/
theorem keys_fieldsToData_subset (spell : Value → Data) (fields : List (String × Value)) :
    Table.keys (fieldsToData spell fields) ⊆ fieldsWrittenNames fields := by
  induction fields with
  | nil => exact List.Subset.refl _
  | cons attr rest ih =>
    obtain ⟨name, value⟩ := attr
    rw [fieldsToData, fieldsWrittenNames]
    split
    · exact ih
    · apply List.cons_subset_cons
      exact List.subset_append_of_subset_right _ ih

/-- Where names are distinct, an attribute is read from the data as it was written. -/
theorem get?_fieldsToData (spell : Value → Data) {fields : List (String × Value)}
    (distinct : (Table.keys fields).Nodup) {name : String} {value : Value} (member : (name, value) ∈ fields) :
    Table.get? (fieldsToData spell fields) name = value.toData? spell := by
  induction fields with
  | nil => cases member
  | cons attr rest ih =>
    obtain ⟨key, first⟩ := attr
    obtain ⟨fresh, distinct⟩ := List.nodup_cons.mp distinct
    rw [fieldsToData]
    rcases List.mem_cons.mp member with same | later
    · cases same
      unfold toData?
      split
      · rw [Table.get?_eq_none_iff]
        intro present
        exact fresh ((keys_fieldsToData_sublist spell rest).subset present)
      · rw [Table.get?_cons, if_pos rfl]
    · have other : key ≠ name := by
        rintro rfl
        exact fresh (List.mem_map.mpr ⟨_, later, rfl⟩)
      split
      · exact ih distinct later
      · rw [Table.get?_cons, if_neg other]
        exact ih distinct later

/-- Attributes are the same as those of a table exactly if each is the same as what is read there. -/
theorem sameFields_iff (attributes : List (String × Value)) (table : Table Value) :
    sameFields attributes table = true ↔
      ∀ attr ∈ attributes, ∃ other, table.get? attr.1 = some other ∧ attr.2.same other = true := by
  induction attributes with
  | nil => simp [sameFields]
  | cons attr rest ih =>
    obtain ⟨name, value⟩ := attr
    rw [sameFields, List.forall_mem_cons, ← ih]
    cases read : table.get? name with
    | none => simp
    | some other => simp

end Value

/-- What construction makes of data is without fault a value, as it is written. -/
def Outcome.Recovers (outcome : Outcome Value) (value : Value) : Prop :=
  outcome.errors = [] ∧ outcome.value = value.written

/-- Whether scalars that are spelled coerce back in a mode. -/
def Recoverable (mode : CoercionMode) (spell : Value → Data) : Prop :=
  ∀ {kind : ScalarKind} {value : Value}, kind.Holds value → value.HasWritableScales →
    coerceScalar mode kind (spell value) = .ok value.written

/-- Spellings are recovered if texts, URIs and dates are texts and the other kinds are read back. -/
theorem Recoverable.of_kinds {mode : CoercionMode} {spell : Value → Data}
    (text : ∀ value, spell (.text value) = .text value) (uri : ∀ value, spell (.uri value) = .text value)
    (date : ∀ value, spell (.date value) = .text value.text)
    (integer : ∀ value, coerceInteger mode (spell (.integer value)) = .ok (.integer value))
    (decimal : ∀ value, wordMin < value.scale → isWord value.scale = true →
      coerceDecimal mode (spell (.decimal value)) = .ok (.decimal value.written))
    (boolean : ∀ value, coerceBoolean mode (spell (.boolean value)) = .ok (.boolean value)) :
    Recoverable mode spell := by
  intro kind value holds scales
  cases value with
  | text value =>
    cases kind with
    | string =>
      rw [text]
      rfl
    | _ => cases holds
  | integer value =>
    cases kind with
    | integer => exact integer value
    | _ => cases holds
  | decimal value =>
    cases kind with
    | decimal =>
      have above : wordMin < value.scale := scales value (by simp [Value.decimals])
      exact decimal value above holds
    | _ => cases holds
  | boolean value =>
    cases kind with
    | boolean => exact boolean value
    | _ => cases holds
  | date value =>
    cases kind with
    | date =>
      simp only [date, coerceScalar, Date.parse_text, Value.written]
      rfl
    | _ => cases holds
  | uri value =>
    cases kind with
    | uri =>
      have isUri : isUriText value = true := holds
      simp only [uri, coerceScalar, isUri, if_true, Value.written]
    | _ => cases holds
  | _ => cases kind <;> cases holds

namespace ObjectModel

/-- The value of an attribute from the data that is given for it, if any. -/
def constructGiven (model : ObjectModel) (mode : CoercionMode) (field : Field) (path : String) :
    Option Data → Outcome Value
  | none => .absent field path
  | some data => constructValue model mode field path data

theorem constructField_eq_given (model : ObjectModel) (mode : CoercionMode) (field : Field) (path : String)
    (entries : Table Data) :
    constructField model mode field path entries =
      constructGiven model mode field path (entries.get? field.name) := by
  rw [constructField_eq]
  rfl

/-- What is recovered for the field of one required value is recovered as a single value. -/
theorem recovers_constructSingle {model : ObjectModel} {mode : CoercionMode} {range : Range} {path : String}
    {data : Data} {value : Value}
    (recovers : (constructValue model mode (itemField range) path data).Recovers value) :
    (constructSingle model mode range path data).Recovers value := by
  by_cases given : data = .null
  · subst given
    have optional := (Outcome.errors_absent_eq_nil_iff (itemField range) path).mp recovers.1
    cases optional
  · rw [constructValue_of_single model mode path rfl given] at recovers
    exact recovers

variable {model : ObjectModel} {mode : CoercionMode} {spell : Value → Data}

/-- Whether an attribute is recovered for a field from its data, wherever it stands. -/
def FieldRecovers (model : ObjectModel) (mode : CoercionMode) (spell : Value → Data) (field : Field)
    (attr : String × Value) : Prop :=
  attr.1 = field.name ∧
    ∀ path, (constructGiven model mode field path (attr.2.toData? spell)).Recovers attr.2

/-- An object is recovered from the data of attributes that are: no key of the data is unknown, and each field
finds its attribute. -/
theorem recovers_fields {classModel : ClassModel} {attributes : List (String × Value)}
    (distinct : (classModel.fields.map Field.name).Nodup)
    (each : List.Forall₂ (FieldRecovers model mode spell) classModel.fields attributes)
    (path : Field → String) :
    (∀ entry ∈ Value.fieldsToData spell attributes, (classModel.field? entry.1).isSome = true) ∧
      (∀ field ∈ classModel.fields, (constructField model mode field (path field)
        (Value.fieldsToData spell attributes)).errors = []) ∧
      (classModel.fields.map fun field => (field.name,
        (constructField model mode field (path field) (Value.fieldsToData spell attributes)).value)) =
        Value.fieldsWritten attributes := by
  have names : Table.keys attributes = classModel.fields.map Field.name :=
    map_eq_map_of_forall₂ (fun _ _ recovers => recovers.1) each.flip
  have distinctKeys : (Table.keys attributes).Nodup := names ▸ distinct
  have recovered : List.Forall₂ (fun field attr => attr.1 = field.name ∧
      (constructField model mode field (path field)
        (Value.fieldsToData spell attributes)).Recovers attr.2) classModel.fields attributes := by
    refine ((List.forall₂_and_left _ _).mpr ⟨fun _ member => member, each.flip⟩).flip.imp ?_
    rintro field ⟨name, value⟩ ⟨member, named, recovers⟩
    obtain rfl : name = field.name := named
    rw [constructField_eq_given, Value.get?_fieldsToData spell distinctKeys member]
    exact ⟨rfl, recovers (path field)⟩
  refine ⟨?_, ?_, ?_⟩
  · intro entry member
    have written := (Value.keys_fieldsToData_sublist spell attributes).subset (List.mem_map_of_mem member)
    rw [names] at written
    obtain ⟨field, isField, named⟩ := List.mem_map.mp written
    rw [(ClassModel.field?_eq_some_iff distinct).mpr ⟨isField, named⟩]
    rfl
  · intro field isField
    obtain ⟨attr, _, _, recovers⟩ := exists_of_mem_forall₂ recovered.flip isField
    exact recovers.1
  · rw [Value.fieldsWritten_eq_map]
    refine map_eq_map_of_forall₂ ?_ recovered
    rintro field attr ⟨named, recovers⟩
    rw [named, recovers.2]

mutual

/-- A value that a field asks for is recovered from its data. -/
theorem recovers_value (wellFormed : model.WellFormed) (recoverable : Recoverable mode spell) :
    ∀ {constraint : ValueConstraint} {value : Value}, ValueMeets model constraint value →
      value.HasWritableScales → ∀ (field : Field) (path : String),
      field.constraint.toValueConstraint = constraint →
        (constructGiven model mode field path (value.toData? spell)).Recovers value
  | _, _, .null, _, ⟨name, range, multivalued, required, identifier, description?⟩, path, same => by
    cases same
    exact ⟨rfl, rfl⟩
  | _, _, @ValueMeets.scalar _ kind _ value holds, scales,
      ⟨name, range, multivalued, required, identifier, description?⟩, path, same => by
    cases same
    have coerced := recoverable holds scales
    obtain ⟨given, spelled⟩ := Value.toData_of_holds spell holds
    have present : spell value ≠ .null := by
      intro null
      have refused := coerces_null mode (.scalar kind)
      rw [Range.coerces, ← null, coerced] at refused
      cases refused
    have single : constructSingle model mode (.scalar kind) path (spell value) =
        .scalar mode kind path (spell value) := by
      cases spell value <;> simp only [constructSingle]
    rw [Value.toData?_of_ne_null spell given, spelled, constructGiven,
      constructValue_of_single model mode path rfl present, single, Outcome.scalar, coerced]
    exact ⟨rfl, rfl⟩
  | _, _, .object found each, scales, ⟨name, range, multivalued, required, identifier, description?⟩, path,
      same => by
    cases same
    have attributes := recovers_attributes wellFormed recoverable each scales
    obtain ⟨known, faultless, equal⟩ := recovers_fields (wellFormed.distinct found) attributes
      fun field => joinPath path field.name
    rw [Value.toData?_of_ne_null spell (by simp), Value.toData, constructGiven,
      constructValue_of_single model mode path rfl (by simp)]
    constructor
    · rw [errors_constructSingle_map_eq_nil_iff model mode found]
      exact ⟨known, faultless⟩
    · simp only [constructSingle, found, Outcome.fields, List.map_map, wellFormed.named found, Value.written,
        ← equal]
      rfl
  | _, _, @ValueMeets.list _ _ _ items given each, scales,
      ⟨name, range, multivalued, required, identifier, description?⟩, path, same => by
    cases same
    obtain ⟨faultless, equal⟩ := recovers_items wellFormed recoverable each scales path 0
    have nonempty : ((Value.itemsToData spell items).isEmpty && required) = false := by
      cases items with
      | cons item rest => rfl
      | nil =>
        cases required with
        | false => rfl
        | true => exact absurd rfl (given rfl)
    rw [Value.toData?_of_ne_null spell (by simp), Value.toData, constructGiven]
    simp only [constructValue, if_true, nonempty, Bool.false_eq_true, if_false]
    exact ⟨List.flatMap_eq_nil_iff.mpr faultless, congrArg Value.list equal⟩

/-- Items are recovered from their data. -/
theorem recovers_items (wellFormed : model.WellFormed) (recoverable : Recoverable mode spell) :
    ∀ {range : Range} {items : List Value}, ItemsMeet model range items →
      (∀ decimal ∈ Value.itemsDecimals items, wordMin < decimal.scale) → ∀ (path : String) (index : Nat),
        (∀ outcome ∈ constructItems model mode range path index (Value.itemsToData spell items),
            outcome.errors = []) ∧
          (constructItems model mode range path index (Value.itemsToData spell items)).map Outcome.value =
            Value.itemsWritten items
  | _, _, .nil, _, path, index => by
    simp only [Value.itemsToData, constructItems]
    exact ⟨by simp, rfl⟩
  | range, _, @ItemsMeet.cons _ _ item _ first others, scales, path, index => by
    obtain ⟨scalesFirst, scalesRest⟩ := List.forall_mem_append.mp scales
    have head :=
      recovers_value wellFormed recoverable first scalesFirst (itemField range) (itemPath path index) rfl
    obtain ⟨faultless, equal⟩ :=
      recovers_items wellFormed recoverable others scalesRest path (index + 1)
    rw [Value.toData?_of_ne_null spell first.single.1, constructGiven] at head
    have single := recovers_constructSingle head
    simp only [Value.itemsToData, constructItems, List.forall_mem_cons, List.map_cons, Value.itemsWritten]
    exact ⟨⟨single.1, faultless⟩, by rw [single.2, equal]⟩

/-- Attributes are recovered from their data. -/
theorem recovers_attributes (wellFormed : model.WellFormed) (recoverable : Recoverable mode spell) :
    ∀ {fields : List Field} {attributes : List (String × Value)}, FieldsMeet model fields attributes →
      (∀ decimal ∈ Value.fieldsDecimals attributes, wordMin < decimal.scale) →
        List.Forall₂ (FieldRecovers model mode spell) fields attributes
  | _, _, .nil, _ => .nil
  | _, _, .cons first others, scales => by
    obtain ⟨scalesFirst, scalesRest⟩ := List.forall_mem_append.mp scales
    refine .cons ⟨rfl, ?_⟩ (recovers_attributes wellFormed recoverable others scalesRest)
    intro path
    exact recovers_value wellFormed recoverable first scalesFirst _ path rfl

end

end ObjectModel

/-- An instance with its decimals as they are read from their written forms. -/
def Instance.written (instanceValue : Instance) : Instance :=
  ⟨instanceValue.className, Value.fieldsWritten instanceValue.fields⟩

namespace ObjectModel

variable {model : ObjectModel} {mode : CoercionMode} {spell : Value → Data}

/-- From the data of its attributes, an instance is constructed as it is written. -/
theorem constructClass_fieldsToData (wellFormed : model.WellFormed) (recoverable : Recoverable mode spell)
    {className : String} {classModel : ClassModel} (found : model.class? className = some classModel)
    {instanceValue : Instance} (named : instanceValue.className = className)
    (each : FieldsMeet model classModel.fields instanceValue.fields)
    (scales : instanceValue.toValue.HasWritableScales) :
    constructClass model mode classModel (Value.fieldsToData spell instanceValue.fields) =
      .ok instanceValue.written := by
  have attributes := recovers_attributes wellFormed recoverable each scales
  obtain ⟨known, faultless, equal⟩ := recovers_fields (wellFormed.distinct found) attributes
    fun field => joinPath "" field.name
  have noUnknown := (Outcome.unknownKeys_eq_nil_iff classModel ""
    (Value.fieldsToData spell instanceValue.fields)).mpr known
  have noErrors : (constructFields model mode classModel
      (Value.fieldsToData spell instanceValue.fields)).errors = [] := by
    simp only [constructFields, Outcome.fields, noUnknown, List.nil_append, List.flatMap_eq_nil_iff,
      List.forall_mem_map]
    exact faultless
  rw [constructClass, noErrors]
  simp only [Instance.written, constructFields, Outcome.fields, List.map_map, wellFormed.named found, named,
    ← equal]
  rfl

mutual

/-- A value that meets a constraint is the same as it is written. -/
theorem same_written_of_meets (wellFormed : model.WellFormed) :
    ∀ {constraint : ValueConstraint} {value : Value}, ValueMeets model constraint value →
      value.written.same value = true
  | _, _, .null => rfl
  | _, _, @ValueMeets.scalar _ kind _ value holds => by
    cases value with
    | decimal value => exact Decimal.sameValue_written value
    | list items => cases kind <;> cases holds
    | object className fields => cases kind <;> cases holds
    | null => rfl
    | _ => simp [Value.written, Value.same]
  | _, _, .object found each => by
    have distinct : (Table.keys _).Nodup := keys_of_fieldsMeet each ▸ wellFormed.distinct found
    have equal := same_written_of_fieldsMeet wellFormed each
    simp only [Value.written, Value.same, Value.fieldsWritten_eq_map, List.length_map, beq_self_eq_true,
      Bool.true_and, Value.sameFields_iff, List.forall_mem_map]
    exact fun attr member => ⟨attr.2, (Table.get?_eq_some_iff_mem distinct).mpr member, equal attr member⟩
  | _, _, .list _ each => by
    rw [Value.written, Value.same]
    exact same_written_of_itemsMeet wellFormed each

theorem same_written_of_itemsMeet (wellFormed : model.WellFormed) :
    ∀ {range : Range} {items : List Value}, ItemsMeet model range items →
      Value.sameItems (Value.itemsWritten items) items = true
  | _, _, .nil => rfl
  | _, _, .cons first others => by
    rw [Value.itemsWritten, Value.sameItems, same_written_of_meets wellFormed first,
      same_written_of_itemsMeet wellFormed others]
    rfl

theorem same_written_of_fieldsMeet (wellFormed : model.WellFormed) :
    ∀ {fields : List Field} {attributes : List (String × Value)}, FieldsMeet model fields attributes →
      ∀ attr ∈ attributes, attr.2.written.same attr.2 = true
  | _, _, .nil => by simp
  | _, _, .cons first others => by
    rw [List.forall_mem_cons]
    exact ⟨same_written_of_meets wellFormed first, same_written_of_fieldsMeet wellFormed others⟩

end

/-- An instance is recovered from the data of its attributes. -/
theorem exists_constructClass_toData (wellFormed : model.WellFormed) (recoverable : Recoverable mode spell)
    {className : String} {classModel : ClassModel} (found : model.class? className = some classModel)
    {instanceValue : Instance} (named : instanceValue.className = className)
    (each : FieldsMeet model classModel.fields instanceValue.fields)
    (scales : instanceValue.toValue.HasWritableScales) :
    ∃ back, constructClass model mode classModel (Value.fieldsToData spell instanceValue.fields) = .ok back ∧
      back.same instanceValue = true := by
  have meets : ValueMeets model ⟨.instanceOf className, false, true⟩ instanceValue.toValue := by
    rw [Instance.toValue, named]
    exact .object found each
  exact ⟨instanceValue.written,
    constructClass_fieldsToData wellFormed recoverable found named each scales,
    same_written_of_meets wellFormed meets⟩

end ObjectModel

/-- A person with an age, a nickname and a friend. -/
def Instance.ada : Instance :=
  ⟨"Person", [("name", .text "Ada"), ("age", .integer 36), ("nicknames", .list [.text "Countess"]),
    ("friend", .object "Person" [("name", .text "Charles"), ("age", .null), ("nicknames", .list []),
      ("friend", .null)])]⟩

/-- The data that the person is constructed from. -/
def adaEntries : Table Data :=
  [("friend", .map [("name", .text "Charles"), ("nicknames", .list [])]), ("name", .text "Ada"),
    ("age", .text "36"), ("nicknames", .list [.text "Countess"])]

theorem Compilation.exists_ada : ∃ compilation,
    ofDocument {} .people = .ok compilation ∧ compilation.model.class? "Person" = some .person ∧
      compilation.model.constructClass .lenient .person adaEntries = .ok .ada := by
  obtain ⟨compilation, compiled, found⟩ := exists_people
  refine ⟨compilation, compiled, found, ?_⟩
  have age : parseInteger "36" = .ok 36 := by rfl
  simp [ObjectModel.constructClass, ObjectModel.constructFields, ObjectModel.constructField,
    ObjectModel.constructSingle, ObjectModel.constructItems, ClassModel.person, ClassModel.field?,
    Outcome.fields, Outcome.unknownKeys, Outcome.scalar, Outcome.list, Outcome.absent, coerceScalar,
    coerceInteger, numericLiteral?, adaEntries, Instance.ada, found, age, Except.map]

theorem Instance.hasWritableScales_ada : Instance.ada.toValue.HasWritableScales := by
  simp [Value.HasWritableScales, ada, toValue, Value.decimals, Value.fieldsDecimals, Value.itemsDecimals]

end ClassSchema
