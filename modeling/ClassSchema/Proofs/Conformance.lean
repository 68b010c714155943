import ClassSchema.Proofs.Acceptance

/-! # Conformance of values

A value meets a constraint: a scalar is of the kind, an object has a value for each field of its class in
the order of the table, a list has single values only and is not empty where a value is required, and null
stands only where none is required. A scalar that data coerces to is one of the kind, in both modes and from any
data.
-/

namespace ClassSchema

/-- Whether a value is a scalar of a kind. Scales of decimals have 64 bits, and URIs have no blanks. -/
def ScalarKind.Holds : ScalarKind → Value → Prop
  | .string, .text _ => True
  | .integer, .integer _ => True
  | .decimal, .decimal value => isWord value.scale = true
  | .boolean, .boolean _ => True
  | .date, .date _ => True
  | .uri, .uri value => isUriText value = true
  | _, _ => False

mutual

/-- A value is one that a constraint asks for. -/
inductive ValueMeets (model : ObjectModel) : ValueConstraint → Value → Prop
  | null {range : Range} {multivalued : Bool} : ValueMeets model ⟨range, multivalued, false⟩ .null
  | scalar {kind : ScalarKind} {required : Bool} {value : Value} (holds : kind.Holds value) :
      ValueMeets model ⟨.scalar kind, false, required⟩ value
  | object {className : String} {required : Bool} {classModel : ClassModel}
      {fields : List (String × Value)} (found : model.class? className = some classModel)
      (each : FieldsMeet model classModel.fields fields) :
      ValueMeets model ⟨.instanceOf className, false, required⟩ (.object className fields)
  | list {range : Range} {required : Bool} {items : List Value} (given : required = true → items ≠ [])
      (each : ItemsMeet model range items) : ValueMeets model ⟨range, true, required⟩ (.list items)

/-- Each item is a single value of a range. -/
inductive ItemsMeet (model : ObjectModel) : Range → List Value → Prop
  | nil {range : Range} : ItemsMeet model range []
  | cons {range : Range} {item : Value} {rest : List Value} (first : ValueMeets model range.single item)
      (others : ItemsMeet model range rest) : ItemsMeet model range (item :: rest)

/-- Attributes are those of a field table, each with a value that its field asks for. -/
inductive FieldsMeet (model : ObjectModel) : List Field → List (String × Value) → Prop
  | nil : FieldsMeet model [] []
  | cons {field : Field} {fields : List Field} {value : Value} {rest : List (String × Value)}
      (first : ValueMeets model field.constraint.toValueConstraint value)
      (others : FieldsMeet model fields rest) :
      FieldsMeet model (field :: fields) ((field.name, value) :: rest)

end

/-- Decimals of values that are asked for have a scale of 64 bits. -/
theorem ScalarKind.isWord_scale_of_holds {kind : ScalarKind} {decimal : Decimal}
    (holds : kind.Holds (.decimal decimal)) : isWord decimal.scale = true := by
  cases kind with
  | decimal => exact holds
  | _ => cases holds

/-- What an item of a list is: neither null nor a list. -/
theorem ValueMeets.single {model : ObjectModel} {range : Range} {value : Value}
    (meets : ValueMeets model range.single value) : value ≠ .null ∧ ∀ items, value ≠ .list items := by
  cases meets with
  | @scalar kind _ _ holds => cases kind <;> cases value <;> simp_all [ScalarKind.Holds]
  | object => simp

theorem keys_of_fieldsMeet {model : ObjectModel} :
    ∀ {fields : List Field} {attributes : List (String × Value)}, FieldsMeet model fields attributes →
      Table.keys attributes = fields.map Field.name
  | _, _, .nil => rfl
  | _, _, .cons _ others => congrArg _ (keys_of_fieldsMeet others)

/-- The scale of a decimal that was read has 64 bits. -/
theorem Decimal.isWord_scale_of_parse {text : String} {decimal : Decimal}
    (read : parse text = .ok decimal) : isWord decimal.scale = true := by
  simp only [parse] at read
  split at read
  · cases read
  split at read
  · cases read
  simp only [ofLiteral, bind, Except.bind] at read
  split at read
  · cases read
  split at read
  · cases read
  split at read
  · cases read
  rename_i fits
  split at read
  · cases read
  cases read
  simpa using fits

/-- A scalar that data coerces to is one of the kind. -/
theorem ScalarKind.holds_of_coerceScalar {mode : CoercionMode} {kind : ScalarKind} {data : Data}
    {value : Value} (coerced : coerceScalar mode kind data = .ok value) : kind.Holds value := by
  cases kind with
  | string =>
    simp only [coerceScalar] at coerced
    split at coerced <;> cases coerced
    trivial
  | integer =>
    simp only [coerceScalar, coerceInteger] at coerced
    split at coerced
    · cases coerced
    · rename_i literal _
      cases read : parseInteger literal <;> simp [read, Except.map] at coerced
      subst coerced
      trivial
  | decimal =>
    simp only [coerceScalar, coerceDecimal] at coerced
    split at coerced
    · cases coerced
    · rename_i literal _
      cases read : Decimal.parse literal <;> simp [read, Except.map] at coerced
      subst coerced
      exact Decimal.isWord_scale_of_parse read
  | boolean =>
    simp only [coerceScalar, coerceBoolean] at coerced
    split at coerced
    · cases coerced
      trivial
    · split at coerced
      · cases coerced
      · split at coerced
        · cases coerced
          trivial
        · split at coerced <;> cases coerced
          trivial
    · cases coerced
  | date =>
    simp only [coerceScalar] at coerced
    split at coerced
    · rename_i text
      cases read : Date.parse text <;> simp [read, Except.map] at coerced
      subst coerced
      trivial
    · cases coerced
  | uri =>
    simp only [coerceScalar] at coerced
    split at coerced
    · split at coerced
      · rename_i isUri
        cases coerced
        exact isUri
      · cases coerced
    · cases coerced

end ClassSchema
