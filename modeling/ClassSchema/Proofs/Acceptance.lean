import ClassSchema.Proofs.FieldTables
import ClassSchema.Proofs.Tables

/-! # What construction takes

Construction collects faults along the field tables. Whether it finds none is a plain test on the data:
scalars must coerce, lists may stand only where several values are expected, an object may have no key
that is no field, and required fields must be there and not be null. The test reads an object entry by
entry, where construction looks each field up, so the two agree on data whose objects repeat no key.
-/

namespace ClassSchema

mutual

/-- Whether no object in the data repeats a key. -/
def Data.HasDistinctKeys : Data → Prop
  | .list items => itemsHaveDistinctKeys items
  | .map entries => (Table.keys entries).Nodup ∧ entriesHaveDistinctKeys entries
  | _ => True

/-- Whether no object in the items repeats a key. -/
def itemsHaveDistinctKeys : List Data → Prop
  | [] => True
  | item :: rest => item.HasDistinctKeys ∧ itemsHaveDistinctKeys rest

/-- Whether no object in the entries repeats a key. -/
def entriesHaveDistinctKeys : List (String × Data) → Prop
  | [] => True
  | (_, data) :: rest => data.HasDistinctKeys ∧ entriesHaveDistinctKeys rest

end

theorem Data.hasDistinctKeys_list_iff {items : List Data} :
    (Data.list items).HasDistinctKeys ↔ ∀ item ∈ items, item.HasDistinctKeys := by
  rw [Data.HasDistinctKeys]
  induction items with
  | nil => simp [itemsHaveDistinctKeys]
  | cons item rest ih => rw [itemsHaveDistinctKeys, ih, List.forall_mem_cons]

theorem Data.hasDistinctKeys_map_iff {entries : Table Data} :
    (Data.map entries).HasDistinctKeys ↔ entries.keys.Nodup ∧ ∀ entry ∈ entries, entry.2.HasDistinctKeys := by
  rw [Data.HasDistinctKeys]
  apply and_congr_right'
  induction entries with
  | nil => simp [entriesHaveDistinctKeys]
  | cons entry rest ih => rw [entriesHaveDistinctKeys, ih, List.forall_mem_cons]

/-- Whether data coerces to a scalar of a range. -/
def Range.coerces (mode : CoercionMode) : Range → Data → Bool
  | .scalar kind, data => (coerceScalar mode kind data).isOk
  | .instanceOf _, _ => false

namespace ObjectModel

mutual

/-- Whether data is taken where a constraint asks for it. -/
def takes (model : ObjectModel) (mode : CoercionMode) (constraint : ValueConstraint) : Data → Bool
  | .null => !constraint.required
  | .list items =>
    if constraint.multivalued then
      !(constraint.required && items.isEmpty) && takesItems model mode constraint.range items
    else constraint.range.coerces mode (.list items)
  | .map entries =>
    !constraint.multivalued &&
      match constraint.range with
      | .scalar kind => (Range.scalar kind).coerces mode (.map entries)
      | .instanceOf className =>
        match model.class? className with
        | none => false
        | some classModel =>
          takesEntries model mode classModel entries &&
            classModel.fields.all fun field => !field.required || Table.has entries field.name
  | data => !constraint.multivalued && constraint.range.coerces mode data

/-- Whether each item is taken for a value of a range. -/
def takesItems (model : ObjectModel) (mode : CoercionMode) (range : Range) : List Data → Bool
  | [] => true
  | item :: rest => takes model mode range.single item && takesItems model mode range rest

/-- Whether each entry is taken for a field of a class. -/
def takesEntries (model : ObjectModel) (mode : CoercionMode) (classModel : ClassModel) :
    List (String × Data) → Bool
  | [] => true
  | (key, data) :: rest =>
    (match classModel.field? key with
      | none => false
      | some field => takes model mode field.constraint.toValueConstraint data) &&
      takesEntries model mode classModel rest

end

/-- The value of an attribute from the data that is given for it. -/
def constructValue (model : ObjectModel) (mode : CoercionMode) (field : Field) (path : String) :
    Data → Outcome Value
  | .null => .absent field path
  | .list items =>
    if field.multivalued then
      let outcome := Outcome.list (constructItems model mode field.range path 0 items)
      if items.isEmpty && field.required then
        ⟨outcome.value, ⟨path, .present, "[]", .missing⟩ :: outcome.errors⟩
      else outcome
    else constructSingle model mode field.range path (.list items)
  | data =>
    if field.multivalued then .fault ⟨path, .list, data.describe, .needsList⟩
    else constructSingle model mode field.range path data

/-- A field is constructed from what a look-up of its name gives. -/
theorem constructField_eq (model : ObjectModel) (mode : CoercionMode) (field : Field) (path : String)
    (entries : Table Data) :
    constructField model mode field path entries =
      match entries.get? field.name with
      | none => .absent field path
      | some data => constructValue model mode field path data := by
  induction entries with
  | nil => simp only [constructField, Table.get?_nil]
  | cons entry rest ih =>
    obtain ⟨key, data⟩ := entry
    rw [Table.get?_cons]
    by_cases same : key = field.name
    · cases data <;> simp only [constructField, constructValue, same, if_true]
    · cases data <;> simp only [constructField, same, if_false, ih]

/-- Where a field has one value and data is given, the value is constructed from it alone. -/
theorem constructValue_of_single {field : Field} {data : Data} (model : ObjectModel)
    (mode : CoercionMode) (path : String) (single : field.multivalued = false) (given : data ≠ .null) :
    constructValue model mode field path data = constructSingle model mode field.range path data := by
  cases data <;> simp [constructValue, single] at given ⊢

/-- Data without entries is a scalar where one is expected, and no instance of any class. -/
theorem constructSingle_of_noMap {data : Data} (model : ObjectModel) (mode : CoercionMode)
    (noMap : ∀ entries, data ≠ .map entries) (range : Range) (path : String) :
    constructSingle model mode range path data =
      match range with
      | .scalar kind => .scalar mode kind path data
      | .instanceOf className => .noInstance model className path data := by
  cases data with
  | map entries => exact absurd rfl (noMap entries)
  | _ => cases range <;> simp only [constructSingle]

end ObjectModel

namespace Outcome

theorem errors_absent_eq_nil_iff (field : Field) (path : String) :
    (absent field path).errors = [] ↔ field.required = false := by
  cases required : field.required <;> simp [absent, fault, required]

/-- A scalar from data has no fault exactly if the data coerces. -/
theorem errors_scalar_eq_nil_iff (mode : CoercionMode) (kind : ScalarKind) (path : String)
    (data : Data) :
    (scalar mode kind path data).errors = [] ↔ (Range.scalar kind).coerces mode data = true := by
  simp only [scalar, Range.coerces]
  split
  · rename_i coerced
    simp only [coerced, Except.isOk, Except.toBool]
  · rename_i refused
    simp [refused, fault, Except.isOk, Except.toBool]

theorem errors_noInstance_ne_nil (model : ObjectModel) (className path : String) (data : Data) :
    (noInstance model className path data).errors ≠ [] := by
  unfold noInstance
  split <;> simp [fault]

/-- Unknown keys are no fault exactly if there are none. -/
theorem unknownKeys_eq_nil_iff (classModel : ClassModel) (path : String)
    (entries : List (String × Data)) :
    unknownKeys classModel path entries = [] ↔
      ∀ entry ∈ entries, (classModel.field? entry.1).isSome = true := by
  simp only [unknownKeys, List.filterMap_eq_nil_iff]
  apply forall₂_congr
  intro entry _
  cases (classModel.field? entry.1).isSome <;> simp

end Outcome

/-- Null is no scalar. -/
theorem coerces_null (mode : CoercionMode) (range : Range) : range.coerces mode .null = false := by
  cases range with
  | instanceOf className => rfl
  | scalar kind => cases kind <;> rfl

namespace ObjectModel

variable (model : ObjectModel) (mode : CoercionMode)

/-- The field of one required value that a value of a range is like. -/
def itemField (range : Range) : Field :=
  ⟨"", range, false, true, false, none⟩

theorem errors_constructSingle_of_noMap {data : Data} (noMap : ∀ entries, data ≠ .map entries)
    (range : Range) (path : String) :
    (constructSingle model mode range path data).errors = [] ↔ range.coerces mode data = true := by
  rw [constructSingle_of_noMap model mode noMap]
  cases range with
  | scalar kind => rw [Outcome.errors_scalar_eq_nil_iff]
  | instanceOf className => simp [Outcome.errors_noInstance_ne_nil, Range.coerces]

/-- What holds of the data given for any field holds of a single value of any range. -/
theorem errors_constructSingle_eq_nil_iff {data : Data}
    (value : ∀ field path, (constructValue model mode field path data).errors = [] ↔
      takes model mode field.constraint.toValueConstraint data = true) (range : Range) (path : String) :
    (constructSingle model mode range path data).errors = [] ↔
      takes model mode range.single data = true := by
  by_cases given : data = .null
  · subst given
    rw [errors_constructSingle_of_noMap model mode (by simp), coerces_null]
    simp [takes, Range.single]
  · have same := constructValue_of_single model mode path
      (show (itemField range).multivalued = false from rfl) given
    have wanted := value (itemField range) path
    rw [same] at wanted
    exact wanted

/-- Data without parts is constructed for a field exactly if it coerces and one value is expected. -/
theorem errors_constructValue_of_leaf {data : Data} (given : data ≠ .null)
    (noList : ∀ items, data ≠ .list items) (noMap : ∀ entries, data ≠ .map entries) (field : Field)
    (path : String) :
    (constructValue model mode field path data).errors = [] ↔
      (!field.multivalued && field.range.coerces mode data) = true := by
  cases several : field.multivalued with
  | true => cases data <;> simp [constructValue, several, Outcome.fault] at given noList noMap ⊢
  | false =>
    rw [constructValue_of_single model mode path several given,
      errors_constructSingle_of_noMap model mode noMap, Bool.not_false, Bool.true_and]

/-- An object is constructed without fault exactly if its keys are fields and the data given for each
field, or its absence, is no fault. -/
theorem errors_constructSingle_map_eq_nil_iff {className : String} {classModel : ClassModel}
    (found : model.class? className = some classModel) (path : String) (entries : Table Data) :
    (constructSingle model mode (.instanceOf className) path (.map entries)).errors = [] ↔
      (∀ entry ∈ entries, (classModel.field? entry.1).isSome = true) ∧
      ∀ field ∈ classModel.fields,
        (constructField model mode field (joinPath path field.name) entries).errors = [] := by
  simp only [constructSingle, found, Outcome.fields, List.append_eq_nil_iff,
    Outcome.unknownKeys_eq_nil_iff, List.flatMap_eq_nil_iff, List.forall_mem_map]

/-- In an object without repeated keys, to look each field up is to go through the entries. -/
theorem faultless_fields_iff {classModel : ClassModel}
    (distinctNames : (classModel.fields.map Field.name).Nodup) {entries : Table Data}
    (distinctKeys : entries.keys.Nodup) (path : String) :
    ((∀ entry ∈ entries, (classModel.field? entry.1).isSome = true) ∧
      ∀ field ∈ classModel.fields,
        (constructField model mode field (joinPath path field.name) entries).errors = []) ↔
    (∀ entry ∈ entries, ∃ field, classModel.field? entry.1 = some field ∧
        (constructValue model mode field (joinPath path field.name) entry.2).errors = []) ∧
      (classModel.fields.all fun field => !field.required || entries.has field.name) = true := by
  constructor
  · rintro ⟨known, faultless⟩
    rw [List.all_eq_true]
    constructor
    · intro entry member
      obtain ⟨field, found⟩ := Option.isSome_iff_exists.mp (known entry member)
      obtain ⟨isField, named⟩ := (ClassModel.field?_eq_some_iff distinctNames).mp found
      have read : entries.get? field.name = some entry.2 :=
        (Table.get?_eq_some_iff_mem distinctKeys).mpr (named ▸ member)
      have constructed := faultless field isField
      rw [constructField_eq, read] at constructed
      exact ⟨field, found, constructed⟩
    · intro field isField
      have constructed := faultless field isField
      rw [constructField_eq] at constructed
      cases read : entries.get? field.name with
      | some data => simp [Table.has, read]
      | none =>
        rw [read] at constructed
        simp [(Outcome.errors_absent_eq_nil_iff field _).mp constructed]
  · rintro ⟨each, present⟩
    constructor
    · intro entry member
      obtain ⟨field, found, _⟩ := each entry member
      simp [found]
    · intro field isField
      rw [constructField_eq]
      cases read : entries.get? field.name with
      | some data =>
        obtain ⟨other, found, constructed⟩ := each _ (Table.mem_of_get? read)
        have same := (ClassModel.field?_eq_some_iff distinctNames).mpr ⟨isField, rfl⟩
        obtain rfl : field = other := Option.some.inj (same.symm.trans found)
        exact constructed
      | none =>
        have required := List.all_eq_true.mp present field isField
        simp only [Table.has, read, Option.isSome_none, Bool.or_false, Bool.not_eq_true'] at required
        exact (Outcome.errors_absent_eq_nil_iff field _).mpr required

mutual

/-- The data given for a field is constructed without fault exactly if it is taken. -/
theorem errors_constructValue_eq_nil_iff (wellFormed : model.WellFormed) :
    ∀ data : Data, data.HasDistinctKeys → ∀ field path,
    (constructValue model mode field path data).errors = [] ↔
      takes model mode field.constraint.toValueConstraint data = true
  | .null, _, field, path => by
    rw [constructValue, Outcome.errors_absent_eq_nil_iff]
    simp [takes, Field.constraint]
  | .bool value, _, field, path =>
    errors_constructValue_of_leaf model mode (by simp) (by simp) (by simp) field path
  | .number literal, _, field, path =>
    errors_constructValue_of_leaf model mode (by simp) (by simp) (by simp) field path
  | .text value, _, field, path =>
    errors_constructValue_of_leaf model mode (by simp) (by simp) (by simp) field path
  | .list items, distinct, field, path => by
    cases several : field.multivalued with
    | true =>
      have each := errors_constructItems_eq_nil_iff wellFormed items distinct field.range path 0
      simp only [takes, Field.constraint, several, if_true, Bool.and_eq_true, ← each, constructValue]
      cases items <;> cases field.required <;> simp [Outcome.list, constructItems]
    | false =>
      rw [constructValue_of_single model mode path several (by simp),
        errors_constructSingle_of_noMap model mode (by simp)]
      simp [takes, Field.constraint, several]
  | .map entries, distinct, field, path => by
    cases several : field.multivalued with
    | true => simp [constructValue, takes, Field.constraint, several, Outcome.fault]
    | false =>
      rw [constructValue_of_single model mode path several (by simp)]
      cases range : field.range with
      | scalar kind =>
        simp only [constructSingle, takes, Field.constraint, several, range,
          Outcome.errors_scalar_eq_nil_iff, Bool.not_false, Bool.true_and]
      | instanceOf className =>
        cases found : model.class? className with
        | none =>
          simp [constructSingle, takes, Field.constraint, several, range, found,
            Outcome.noInstance, Outcome.fault]
        | some classModel =>
          rw [errors_constructSingle_map_eq_nil_iff model mode found,
            faultless_fields_iff model mode (wellFormed.distinct found) distinct.1]
          simp only [takes, Field.constraint, several, range, found, Bool.not_false, Bool.true_and,
            Bool.and_eq_true, takesEntries_iff wellFormed entries distinct.2 classModel path]

/-- The items of a list are constructed without fault exactly if each is taken. -/
theorem errors_constructItems_eq_nil_iff (wellFormed : model.WellFormed) :
    ∀ items : List Data, itemsHaveDistinctKeys items → ∀ range path index,
    (∀ outcome ∈ constructItems model mode range path index items, outcome.errors = []) ↔
      takesItems model mode range items = true
  | [], _, range, path, index => by simp [constructItems, takesItems]
  | item :: rest, distinct, range, path, index => by
    have first := errors_constructSingle_eq_nil_iff model mode
      (errors_constructValue_eq_nil_iff wellFormed item distinct.1) range (itemPath path index)
    have others := errors_constructItems_eq_nil_iff wellFormed rest distinct.2 range path (index + 1)
    simp only [constructItems, List.forall_mem_cons, takesItems, Bool.and_eq_true, first, others]

/-- The entries of an object are all taken exactly if no key is unknown and what is given for each field
is constructed without fault. -/
theorem takesEntries_iff (wellFormed : model.WellFormed) :
    ∀ entries : List (String × Data), entriesHaveDistinctKeys entries → ∀ classModel path,
    takesEntries model mode classModel entries = true ↔
      ∀ entry ∈ entries, ∃ field, classModel.field? entry.1 = some field ∧
        (constructValue model mode field (joinPath path field.name) entry.2).errors = []
  | [], _, classModel, path => by simp [takesEntries]
  | (key, data) :: rest, distinct, classModel, path => by
    have others := takesEntries_iff wellFormed rest distinct.2 classModel path
    have first := errors_constructValue_eq_nil_iff wellFormed data distinct.1
    simp only [takesEntries, Bool.and_eq_true, others, List.forall_mem_cons]
    apply and_congr_left
    intro _
    cases classModel.field? key with
    | none => simp
    | some field => simp [first]

end

/-- An instance is constructed exactly if the object is taken. -/
theorem isOk_constructClass_iff (wellFormed : model.WellFormed) {className : String}
    {classModel : ClassModel} (found : model.class? className = some classModel) {entries : Table Data}
    (distinct : (Data.map entries).HasDistinctKeys) :
    (constructClass model mode classModel entries).isOk = true ↔
      takes model mode (Range.instanceOf className).single (.map entries) = true := by
  rw [← errors_constructSingle_eq_nil_iff model mode
    (errors_constructValue_eq_nil_iff model mode wellFormed (.map entries) distinct) _ ""]
  have same : (constructSingle model mode (.instanceOf className) "" (.map entries)).errors =
      (constructFields model mode classModel entries).errors := by
    simp only [constructSingle, found, constructFields]
  rw [same]
  simp only [constructClass, List.isEmpty_iff]
  split
  · rename_i faultless
    simp [faultless, Except.isOk, Except.toBool]
  · rename_i faulty
    simp [faulty, Except.isOk, Except.toBool]

/-- JSON data is loaded exactly if it is taken for an instance. -/
theorem isOk_loadData_iff (wellFormed : model.WellFormed) {className : String}
    {classModel : ClassModel} (found : model.class? className = some classModel) {data : Data}
    (distinct : data.HasDistinctKeys) :
    (loadData model classModel data).isOk = true ↔
      takes model .typed (Range.instanceOf className).single data = true := by
  cases data with
  | map entries =>
    rw [← isOk_constructClass_iff model .typed wellFormed found distinct]
    cases built : constructClass model .typed classModel entries <;>
      simp only [loadData, built, mapError_ok, mapError_error, Except.isOk, Except.toBool]
  | _ => simp [loadData, takes, Range.single, Range.coerces, Except.isOk, Except.toBool]

end ObjectModel

end ClassSchema
