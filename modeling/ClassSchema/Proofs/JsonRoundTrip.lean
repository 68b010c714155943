import ClassSchema.Instance.Encoding
import ClassSchema.Proofs.Dates
import ClassSchema.Proofs.DecimalText
import ClassSchema.Proofs.DocumentNames
import ClassSchema.Proofs.JsonText
import ClassSchema.Proofs.Reconstruction

/-! # Instances in JSON and back

Encoding a value that meets a constraint succeeds: its numbers are literals of JSON. Its data is legible and
its scalars coerce back in the typed mode. So every constructed instance is loaded again from both texts that
are written of it.
-/

namespace ClassSchema

/-- The data of a number that is written as a text: the literal with one spelling of its exponent. -/
def Json.spelledNumber (text : String) : Data :=
  .number ((literal? text).getD text)

/-- How a scalar is spelled in JSON. -/
def Value.jsonSpelling : Value → Data
  | .text value => .text value
  | .uri value => .text value
  | .integer value => Json.spelledNumber (toString value)
  | .decimal value => Json.spelledNumber value.spelling
  | .boolean value => .bool value
  | .date value => .text value.text
  | _ => .null

theorem Json.literal?_text (literal : NumberLiteral) :
    literal? literal.text = some literal.canonical.text := by
  have read := @number?_append literal [] (by simp [EndsNumber])
  rw [List.append_nil] at read
  rw [literal?, NumberLiteral.text, String.toList_ofList, read]
  rfl

theorem Json.spelledNumber_text (literal : NumberLiteral) :
    spelledNumber literal.text = .number literal.canonical.text := by
  rw [spelledNumber, literal?_text]
  rfl

/-- An integer is spelled as it is written. -/
theorem Json.spelledNumber_int (value : Int) : spelledNumber (toString value) = .number (toString value) := by
  rw [← NumberLiteral.text_ofInt, spelledNumber_text]
  rfl

/-- A decimal whose scale is above the least is spelled by a literal that has the value. -/
theorem Json.exists_spelledDecimal {decimal : Decimal} (above : wordMin < decimal.scale)
    (fits : isWord decimal.scale = true) :
    ∃ literal : NumberLiteral, decimal.spelling = literal.text ∧
      Decimal.parse literal.canonical.text = .ok decimal.written := by
  obtain ⟨literal, text, hasScale, value⟩ :=
    Decimal.exists_literal fits (Decimal.ne_leastZero_of_lt above)
  have parsed := literal.canonical.parse_text
  rw [if_pos (literal.hasScale_canonical.mpr hasScale)] at parsed
  refine ⟨literal, by rw [Decimal.spelling, text, Option.getD_some], ?_⟩
  rw [parsed, ← value, NumberLiteral.scale, NumberLiteral.exponent_canonical]
  rfl

/-- Scalars that are spelled in JSON coerce back in the typed mode. -/
theorem recoverable_jsonSpelling : Recoverable .typed Value.jsonSpelling := by
  refine Recoverable.of_kinds (fun _ => rfl) (fun _ => rfl) (fun _ => rfl) ?_ ?_ fun _ => rfl
  · intro value
    rw [Value.jsonSpelling, Json.spelledNumber_int]
    simp only [coerceInteger, numericLiteral?, parseInteger_toString]
    rfl
  · intro value above fits
    obtain ⟨literal, text, parsed⟩ := Json.exists_spelledDecimal above fits
    rw [Value.jsonSpelling, text, Json.spelledNumber_text]
    simp only [coerceDecimal, numericLiteral?, parsed]
    rfl

theorem numberData_text (path : String) (literal : NumberLiteral) :
    numberData path literal.text = .ok (Json.spelledNumber literal.text) := by
  rw [numberData, Json.spelledNumber, Json.literal?_text]
  rfl

/-- The least scale of a decimal is not above itself. -/
theorem Value.HasWritableScales.leastZero_not_mem {value : Value} (scales : value.HasWritableScales) :
    Decimal.leastZero ∉ value.decimals :=
  fun member => Int.lt_irrefl _ (scales _ member)

/-- A scalar is encoded as it is spelled, unless it is the decimal that has no written form. -/
theorem Value.toJson_of_holds {kind : ScalarKind} {value : Value} (holds : kind.Holds value) (path : String) :
    value.toJson path =
      if Decimal.leastZero ∈ value.decimals then .error .overflow else .ok value.jsonSpelling := by
  cases value with
  | integer value =>
    rw [if_neg (by simp [decimals]), toJson, jsonSpelling, ← NumberLiteral.text_ofInt, numberData_text]
  | decimal value =>
    have fits := ScalarKind.isWord_scale_of_holds holds
    rw [toJson, jsonSpelling, decimalText]
    by_cases least : value = Decimal.leastZero
    · subst least
      rfl
    · obtain ⟨literal, text, _⟩ := Decimal.exists_literal fits least
      rw [if_neg (by simpa [decimals, eq_comm] using least), Decimal.spelling, text]
      exact numberData_text path literal
  | null => cases kind <;> cases holds
  | list items => cases kind <;> cases holds
  | object className fields => cases kind <;> cases holds
  | _ => simp [toJson, decimals, jsonSpelling]

namespace ObjectModel

variable {model : ObjectModel}

mutual

/-- A value that is not null and meets a constraint is encoded as its data, unless it holds the decimal that has no
written form. -/
theorem toJson_of_meets : ∀ {constraint : ValueConstraint} {value : Value},
    ValueMeets model constraint value → value ≠ .null → ∀ path : String,
      value.toJson path = if Decimal.leastZero ∈ value.decimals then .error .overflow
        else .ok (value.toData Value.jsonSpelling)
  | _, _, .null, given, _ => absurd rfl given
  | _, _, .scalar holds, _, path => by
    rw [Value.toJson_of_holds holds, (Value.toData_of_holds _ holds).2]
  | _, _, .object _ each, _, path => by
    rw [Value.toJson, fieldsToJson_of_meet each, Value.decimals, Value.toData, apply_ite (Except.map Data.map)]
    rfl
  | _, _, .list _ each, _, path => by
    rw [Value.toJson, itemsToJson_of_meet each, Value.decimals, Value.toData, apply_ite (Except.map Data.list)]
    rfl

/-- Single values are encoded as their data, unless one holds the decimal that has no written form. -/
theorem itemsToJson_of_meet : ∀ {range : Range} {items : List Value}, ItemsMeet model range items →
    ∀ (path : String) (index : Nat),
      Value.itemsToJson path index items = if Decimal.leastZero ∈ Value.itemsDecimals items then .error .overflow
        else .ok (Value.itemsToData Value.jsonSpelling items)
  | _, _, .nil, _, _ => rfl
  | _, _, @ItemsMeet.cons _ _ item rest first others, path, index => by
    rw [Value.itemsToJson, toJson_of_meets first first.single.1, itemsToJson_of_meet others]
    by_cases here : Decimal.leastZero ∈ item.decimals
    · simp [Value.itemsDecimals, here, bind, Except.bind]
    · by_cases later : Decimal.leastZero ∈ Value.itemsDecimals rest <;>
        simp [Value.itemsDecimals, Value.itemsToData, here, later, bind, Except.bind, pure, Except.pure]

/-- Attributes are encoded as their data, unless one holds the decimal that has no written form. -/
theorem fieldsToJson_of_meet : ∀ {fields : List Field} {attributes : List (String × Value)},
    FieldsMeet model fields attributes → ∀ path : String,
      Value.fieldsToJson path attributes =
        if Decimal.leastZero ∈ Value.fieldsDecimals attributes then .error .overflow
        else .ok (Value.fieldsToData Value.jsonSpelling attributes)
  | _, _, .nil, _ => rfl
  | _, _, @FieldsMeet.cons _ field _ value rest first others, path => by
    rw [Value.fieldsToJson, Value.fieldsToData, Value.fieldsDecimals, fieldsToJson_of_meet others]
    by_cases absent : value.isNull
    · obtain rfl : value = .null := by cases value <;> first | rfl | cases absent
      simp [Value.isNull, Value.decimals]
    · rw [if_neg absent, if_neg absent, toJson_of_meets first (Value.ne_null_of_isNull absent)]
      by_cases here : Decimal.leastZero ∈ value.decimals
      · simp [here, bind, Except.bind]
      · by_cases later : Decimal.leastZero ∈ Value.fieldsDecimals rest <;>
          simp [here, later, bind, Except.bind, pure, Except.pure]

end

end ObjectModel

/-- An instance whose attributes meet the fields is encoded as their data, unless it holds the decimal that has no
written form. -/
theorem Instance.toJson_of_meets {model : ObjectModel} {fields : List Field} {instanceValue : Instance}
    (each : FieldsMeet model fields instanceValue.fields) :
    instanceValue.toJson = if Decimal.leastZero ∈ instanceValue.toValue.decimals then .error .overflow
      else .ok (instanceValue.toValue.toData Value.jsonSpelling) := by
  rw [toJson, ObjectModel.fieldsToJson_of_meet each, toValue, Value.decimals, Value.toData,
    apply_ite (Except.map Data.map)]
  rfl

/-- Spelled scalars are legible. -/
theorem Value.isLegible_jsonSpelling {kind : ScalarKind} {value : Value} (holds : kind.Holds value)
    (scales : value.HasWritableScales) (depth : Nat) : Json.IsLegible depth value.jsonSpelling := by
  cases value with
  | integer value =>
    rw [jsonSpelling, ← NumberLiteral.text_ofInt, Json.spelledNumber_text, Json.IsLegible]
    exact ⟨_, rfl⟩
  | decimal value =>
    have above : wordMin < value.scale := scales value (by simp [decimals])
    obtain ⟨literal, text, _⟩ := Json.exists_spelledDecimal above (ScalarKind.isWord_scale_of_holds holds)
    rw [jsonSpelling, text, Json.spelledNumber_text, Json.IsLegible]
    exact ⟨_, rfl⟩
  | _ => simp [jsonSpelling, Json.IsLegible]

namespace ObjectModel

variable {model : ObjectModel}

mutual

/-- The data of a value that meets a constraint is legible where it is not nested too deep and no attribute
has the name that is kept for numbers. -/
theorem isLegible_of_meets (wellFormed : model.WellFormed) : ∀ {constraint : ValueConstraint} {value : Value},
    ValueMeets model constraint value → value.HasWritableScales → Json.numberKey ∉ value.writtenNames →
      ∀ {depth : Nat}, value.depth ≤ depth → Json.IsLegible depth (value.toData Value.jsonSpelling)
  | _, _, .null, _, _, _, _ => by simp [Value.toData, Value.jsonSpelling, Json.IsLegible]
  | _, _, @ValueMeets.scalar _ kind _ value holds, scales, _, depth, _ => by
    rw [(Value.toData_of_holds _ holds).2]
    exact Value.isLegible_jsonSpelling holds scales depth
  | _, _, .object found each, scales, ordinary, depth + 1, shallow => by
    have distinct : (Table.keys _).Nodup := keys_of_fieldsMeet each ▸ wellFormed.distinct found
    rw [Value.toData, Json.IsLegible]
    refine ⟨(Value.keys_fieldsToData_sublist _ _).nodup distinct, ?_,
      entriesAreLegible_of_meet wellFormed each scales ordinary (Nat.le_of_succ_le_succ shallow)⟩
    intro entry first named
    have member := List.mem_map_of_mem (f := Prod.fst) (List.mem_of_mem_head? first)
    exact ordinary (named ▸ Value.keys_fieldsToData_subset _ _ member)
  | _, _, .list _ each, scales, ordinary, depth + 1, shallow => by
    rw [Value.toData, Json.IsLegible]
    exact itemsAreLegible_of_meet wellFormed each scales ordinary (Nat.le_of_succ_le_succ shallow)

/-- The data of single values is legible. -/
theorem itemsAreLegible_of_meet (wellFormed : model.WellFormed) : ∀ {range : Range} {items : List Value},
    ItemsMeet model range items → (∀ decimal ∈ Value.itemsDecimals items, wordMin < decimal.scale) →
      Json.numberKey ∉ Value.itemsWrittenNames items → ∀ {depth : Nat}, Value.itemsDepth items ≤ depth →
        Json.itemsAreLegible depth (Value.itemsToData Value.jsonSpelling items)
  | _, _, .nil, _, _, _, _ => trivial
  | _, _, .cons first others, scales, ordinary, _, shallow => by
    obtain ⟨scalesFirst, scalesRest⟩ := List.forall_mem_append.mp scales
    obtain ⟨shallowFirst, shallowRest⟩ := Nat.max_le.mp shallow
    rw [Value.itemsWrittenNames, List.mem_append, not_or] at ordinary
    exact ⟨isLegible_of_meets wellFormed first scalesFirst ordinary.1 shallowFirst,
      itemsAreLegible_of_meet wellFormed others scalesRest ordinary.2 shallowRest⟩

/-- The data of attributes is legible. -/
theorem entriesAreLegible_of_meet (wellFormed : model.WellFormed) : ∀ {fields : List Field}
    {attributes : List (String × Value)}, FieldsMeet model fields attributes →
      (∀ decimal ∈ Value.fieldsDecimals attributes, wordMin < decimal.scale) →
      Json.numberKey ∉ Value.fieldsWrittenNames attributes → ∀ {depth : Nat},
        Value.fieldsDepth attributes ≤ depth →
          Json.entriesAreLegible depth (Value.fieldsToData Value.jsonSpelling attributes)
  | _, _, .nil, _, _, _, _ => trivial
  | _, _, @FieldsMeet.cons _ _ _ _ rest first others, scales, ordinary, _, shallow => by
    obtain ⟨scalesFirst, scalesRest⟩ := List.forall_mem_append.mp scales
    obtain ⟨shallowFirst, shallowRest⟩ := Nat.max_le.mp shallow
    have later (ordinary : Json.numberKey ∉ Value.fieldsWrittenNames rest) :=
      entriesAreLegible_of_meet wellFormed others scalesRest ordinary shallowRest
    rw [Value.fieldsToData]
    rw [Value.fieldsWrittenNames] at ordinary
    split
    · rename_i absent
      rw [if_pos absent] at ordinary
      exact later ordinary
    · rename_i given
      rw [if_neg given, List.mem_cons, List.mem_append, not_or, not_or] at ordinary
      exact ⟨isLegible_of_meets wellFormed first scalesFirst ordinary.2.1 shallowFirst, later ordinary.2.2⟩

end

end ObjectModel

/-- A constructed instance of a compiled schema is encoded, and both texts are loaded as an instance that is
the same. No scale of a decimal is the least of 64 bits, nothing is nested deeper than the reader goes, and no
attribute has the name that the reader keeps for numbers. -/
theorem Compilation.exists_loadJson_same {settings : Settings} {document : Document}
    {compilation : Compilation} (compiled : ofDocument settings document = .ok compilation)
    {className : String} {classModel : ClassModel}
    (found : compilation.model.class? className = some classModel) {mode : CoercionMode}
    {entries : Table Data} {instanceValue : Instance}
    (constructed : compilation.model.constructClass mode classModel entries = .ok instanceValue)
    (scales : instanceValue.toValue.HasWritableScales) (shallow : instanceValue.toValue.depth ≤ Json.maxDepth)
    (ordinary : Json.numberKey ∉ instanceValue.toValue.writtenNames) :
    ∃ compactText indentedText back, instanceValue.toJsonText = .ok compactText ∧
      instanceValue.toIndentedJsonText = .ok indentedText ∧
      compilation.model.loadJson className compactText = .ok back ∧
      compilation.model.loadJson className indentedText = .ok back ∧ back.same instanceValue = true := by
  have wellFormed := ObjectModel.wellFormed_of_ofDocument (parts_of_ofDocument compiled).1
  obtain ⟨named, each⟩ := ObjectModel.meets_of_constructClass _ mode wellFormed found constructed
  have meets : ValueMeets compilation.model ⟨.instanceOf className, false, true⟩ instanceValue.toValue := by
    rw [Instance.toValue, named]
    exact .object found each
  let data : Data := .map (Value.fieldsToData Value.jsonSpelling instanceValue.fields)
  have encoded : instanceValue.toJson = .ok data :=
    by rw [Instance.toJson_of_meets each, if_neg scales.leastZero_not_mem, Instance.toValue, Value.toData]
  have legible : Json.IsLegible Json.maxDepth data := by
    have legible := ObjectModel.isLegible_of_meets wellFormed meets scales ordinary shallow
    rwa [Instance.toValue, Value.toData] at legible
  obtain ⟨back, rebuilt, same⟩ :=
    ObjectModel.exists_constructClass_toData wellFormed recoverable_jsonSpelling found named each scales
  have loaded {text : String} (read : Json.read? text = some data) :
      compilation.model.loadJson className text = .ok back := by
    simp only [ObjectModel.loadJson, found, read, ObjectModel.loadData, data, rebuilt]
    rfl
  refine ⟨Json.compact data, Json.indented data, back, ?_, ?_, loaded (Json.read?_compact legible),
    loaded (Json.read?_indented legible), same⟩
  · rw [Instance.toJsonText, encoded]
    rfl
  · rw [Instance.toIndentedJsonText, encoded]
    rfl

/-- A person with an age, a nickname and a friend is loaded again from both texts. -/
theorem Compilation.exists_loadJson_same_ada : ∃ compilation,
    ofDocument {} .people = .ok compilation ∧ compilation.model.class? "Person" = some .person ∧
      compilation.model.constructClass .lenient .person adaEntries = .ok .ada ∧
      Instance.ada.toValue.HasWritableScales ∧ Instance.ada.toValue.depth ≤ Json.maxDepth ∧
      Json.numberKey ∉ Instance.ada.toValue.writtenNames ∧
      ∃ compactText indentedText back, Instance.ada.toJsonText = .ok compactText ∧
        Instance.ada.toIndentedJsonText = .ok indentedText ∧
        compilation.model.loadJson "Person" compactText = .ok back ∧
        compilation.model.loadJson "Person" indentedText = .ok back ∧ back.same .ada = true := by
  obtain ⟨compilation, compiled, found, constructed⟩ := exists_ada
  have scales := Instance.hasWritableScales_ada
  have shallow : Instance.ada.toValue.depth ≤ Json.maxDepth := by decide
  have ordinary : Json.numberKey ∉ Instance.ada.toValue.writtenNames := by decide
  exact ⟨compilation, compiled, found, constructed, scales, shallow, ordinary,
    exists_loadJson_same compiled found constructed scales shallow ordinary⟩

end ClassSchema
