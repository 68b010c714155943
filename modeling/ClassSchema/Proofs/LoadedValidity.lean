import ClassSchema.Proofs.JsonRoundTrip
import ClassSchema.Proofs.Linking
import ClassSchema.Proofs.NumberReadings
import ClassSchema.Proofs.ReadingShapes

/-! # Validity of what is loaded

A check holds the data of a text against a definition, and the instance is made of another reading of the same
text. What a pair of readings must share, place by place, so that valid data makes an instance whose encoding is
valid again is said first. JSON text has one reading, so nothing is to be shared; of block text the readers share
the nodes.
-/

namespace ClassSchema

open Yaml (Node Style)

namespace ObjectModel

/-- What a pair of readings shares: `paired constraint written raw` says that data is written, and other data
taken for a value, in one place where a constraint asks for it. From valid data it leads on to the pairs of what
is inside, and a scalar that the other data coerces to has a valid encoding. -/
structure Shares (model : ObjectModel) (formats : Bool) (mode : CoercionMode)
    (paired : ValueConstraint → Data → Data → Prop) : Prop where
  scalar : ∀ {kind required written raw value}, paired ⟨.scalar kind, false, required⟩ written raw →
    model.Accepts formats ⟨.scalar kind, false, required⟩ written → coerceScalar mode kind raw = .ok value →
      kind.rule.messages? formats false value.jsonSpelling = some []
  list : ∀ {range required written raws}, paired ⟨range, true, required⟩ written (.list raws) →
    model.Accepts formats ⟨range, true, required⟩ written →
      ∀ raw ∈ raws, ∃ item, paired range.single item raw ∧ model.Accepts formats range.single item
  map : ∀ {className classModel required written table},
    paired ⟨.instanceOf className, false, required⟩ written (.map table) →
      model.Accepts formats ⟨.instanceOf className, false, required⟩ written →
        model.class? className = some classModel → ∀ {name field}, classModel.field? name = some field →
          ∀ {raw}, Table.get? table name = some raw → ∃ item, paired field.constraint.toValueConstraint item raw ∧
            model.Accepts formats field.constraint.toValueConstraint item

variable {model : ObjectModel} {formats : Bool} {mode : CoercionMode}
  {paired : ValueConstraint → Data → Data → Prop}

/-- Whether an attribute is valid for a field: it is null only if it may be. -/
structure AcceptsAttribute (model : ObjectModel) (formats : Bool) (field : Field) (attr : String × Value) :
    Prop where
  named : attr.1 = field.name
  optional : attr.2 = .null → field.required = false
  valid : attr.2 ≠ .null →
    model.Accepts formats field.constraint.toValueConstraint (attr.2.toData Value.jsonSpelling)

/-- The names of attributes that are valid for fields are those of the fields. -/
theorem keys_of_acceptsAttributes {fields : List Field} {attributes : List (String × Value)}
    (each : List.Forall₂ (AcceptsAttribute model formats) fields attributes) :
    Table.keys attributes = fields.map Field.name := by
  induction each with
  | nil => rfl
  | cons first _ ih => exact congrArg₂ List.cons first.named ih

/-- What is encoded of attributes are those that are not null. -/
theorem mem_fieldsToData_iff {attributes : List (String × Value)} {entry : String × Data} :
    entry ∈ Value.fieldsToData Value.jsonSpelling attributes ↔
      ∃ attr ∈ attributes, attr.2 ≠ .null ∧ entry = (attr.1, attr.2.toData Value.jsonSpelling) := by
  induction attributes with
  | nil => simp [Value.fieldsToData]
  | cons attr rest ih =>
    obtain ⟨name, value⟩ := attr
    rw [Value.fieldsToData]
    cases value <;> simp [Value.isNull, ih]

/-- Attributes that are valid for the fields of a class make an object that is valid. -/
theorem accepts_object {className : String} {classModel : ClassModel}
    (found : model.class? className = some classModel) (distinct : (classModel.fields.map Field.name).Nodup)
    (required : Bool) {attributes : List (String × Value)}
    (each : List.Forall₂ (AcceptsAttribute model formats) classModel.fields attributes) :
    model.Accepts formats ⟨.instanceOf className, false, required⟩
      (.map (Value.fieldsToData Value.jsonSpelling attributes)) := by
  have names := keys_of_acceptsAttributes each
  -- an entry belongs to the field of its name, and is the attribute for it
  have ofEntry {entry : String × Data} (member : entry ∈ Value.fieldsToData Value.jsonSpelling attributes) :
      ∃ field, classModel.field? entry.1 = some field ∧
        model.Accepts formats field.constraint.toValueConstraint entry.2 := by
    obtain ⟨attr, isAttribute, given, rfl⟩ := mem_fieldsToData_iff.mp member
    obtain ⟨field, isField, accepts⟩ := exists_of_mem_forall₂ each isAttribute
    exact ⟨field, (ClassModel.field?_eq_some_iff distinct).mpr ⟨isField, accepts.named.symm⟩,
      accepts.valid given⟩
  refine .object found ?_ ?_ ?_
  · intro field isField required
    obtain ⟨attr, isAttribute, accepts⟩ := exists_of_mem_forall₂ each.flip isField
    have given : attr.2 ≠ .null := by
      intro isNull
      rw [accepts.optional isNull] at required
      cases required
    rw [Table.has_iff_mem_keys, ← accepts.named]
    exact List.mem_map_of_mem (mem_fieldsToData_iff.mpr ⟨attr, isAttribute, given, rfl⟩)
  · intro entry member
    obtain ⟨field, isField, _⟩ := ofEntry member
    rw [isField]
    rfl
  · intro entry member field isField
    obtain ⟨other, isOther, accepts⟩ := ofEntry member
    cases isField.symm.trans isOther
    exact accepts

mutual

/-- What is made of data that is paired with valid data has a valid encoding, unless it is null. -/
theorem accepts_of_makes (wellFormed : model.WellFormed) (shares : Shares model formats mode paired) :
    ∀ {constraint : ValueConstraint} {raw : Data} {value : Value}, Makes model mode constraint raw value →
      ∀ {written : Data}, paired constraint written raw → model.Accepts formats constraint written →
        value ≠ .null → model.Accepts formats constraint (value.toData Value.jsonSpelling)
  | _, _, _, .null, _, _, _, given => absurd rfl given
  | _, _, value, .scalar coerced, written, isPair, valid, _ => by
    rw [(Value.toData_of_holds _ (ScalarKind.holds_of_coerceScalar coerced)).2]
    exact .scalar (shares.scalar isPair valid coerced)
  | _, _, _, .object found known each, written, isPair, valid, _ => by
    have distinct := wellFormed.distinct found
    rw [Value.toData]
    refine accepts_object found distinct _ (acceptsAttributes_of_makes wellFormed shares each ?_)
    intro field isField raw read
    exact shares.map isPair valid found ((ClassModel.field?_eq_some_iff distinct).mpr ⟨isField, rfl⟩) read
  | _, _, _, .list given each, written, isPair, valid, _ => by
    rw [Value.toData]
    obtain ⟨nonempty, items⟩ := accepts_of_makesItems wellFormed shares each (shares.list isPair valid)
    exact .list (fun required => nonempty (given required)) items

/-- What is made of items that are paired with valid data has valid encodings, and is not nothing. -/
theorem accepts_of_makesItems (wellFormed : model.WellFormed) (shares : Shares model formats mode paired) :
    ∀ {range : Range} {raws : List Data} {values : List Value}, MakesItems model mode range raws values →
      (∀ raw ∈ raws, ∃ item, paired range.single item raw ∧ model.Accepts formats range.single item) →
        (raws ≠ [] → Value.itemsToData Value.jsonSpelling values ≠ []) ∧
          ∀ item ∈ Value.itemsToData Value.jsonSpelling values, model.Accepts formats range.single item
  | _, _, _, .nil, _ => by simp [Value.itemsToData]
  | _, _, _, @MakesItems.cons _ _ _ _ _ value _ first others, valid => by
    obtain ⟨⟨item, isPair, isValid⟩, rest⟩ := List.forall_mem_cons.mp valid
    have given : value ≠ .null := by
      rintro rfl
      cases first.optional_of_null
    rw [Value.itemsToData]
    exact ⟨fun _ => List.cons_ne_nil _ _, List.forall_mem_cons.mpr
      ⟨accepts_of_makes wellFormed shares first isPair isValid given,
        (accepts_of_makesItems wellFormed shares others rest).2⟩⟩

/-- Attributes that are made of entries that are paired with valid data are valid. -/
theorem acceptsAttributes_of_makes (wellFormed : model.WellFormed) (shares : Shares model formats mode paired) :
    ∀ {table : Table Data} {fields : List Field} {attributes : List (String × Value)},
      MakesFields model mode table fields attributes →
        (∀ field ∈ fields, ∀ raw, table.get? field.name = some raw → ∃ item,
          paired field.constraint.toValueConstraint item raw ∧
            model.Accepts formats field.constraint.toValueConstraint item) →
          List.Forall₂ (AcceptsAttribute model formats) fields attributes
  | _, _, _, .nil, _ => .nil
  | _, _, _, .absent missing optional others, valid =>
    .cons ⟨rfl, fun _ => optional, fun given => absurd rfl given⟩
      (acceptsAttributes_of_makes wellFormed shares others (List.forall_mem_cons.mp valid).2)
  | _, _, _, .given read first others, valid => by
    obtain ⟨isValid, rest⟩ := List.forall_mem_cons.mp valid
    obtain ⟨item, isPair, accepts⟩ := isValid _ read
    refine .cons ⟨rfl, ?_, accepts_of_makes wellFormed shares first isPair accepts⟩
      (acceptsAttributes_of_makes wellFormed shares others rest)
    rintro rfl
    exact first.optional_of_null

end

end ObjectModel

end ClassSchema
