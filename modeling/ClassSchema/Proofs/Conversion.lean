import ClassSchema.Proofs.BlockRoundTrip
import ClassSchema.Proofs.JsonRoundTrip

/-! # Conversion between encodings

An instance that is loaded from one of its texts is the instance with its decimals as they are read from their
written forms. Few zeros that a negative scale leaves away are digits there, but they are written the same. So
whichever text an instance is loaded from, all its texts are the same again, character by character.
-/

namespace ClassSchema

open Yaml (Node)

namespace Value

theorem isNull_written (value : Value) : value.written.isNull = value.isNull := by
  cases value <;> rfl

mutual

/-- A value as it is written has the same JSON data. -/
theorem toJson_written : ∀ (value : Value) (path : String), value.written.toJson path = value.toJson path
  | .decimal value, path => by rw [written, toJson, toJson, decimalText, decimalText, value.text?_written]
  | .list items, path => by rw [written, toJson, toJson, itemsToJson_itemsWritten items path 0]
  | .object _ fields, path => by rw [written, toJson, toJson, fieldsToJson_fieldsWritten fields path]
  | .null, _ | .text _, _ | .uri _, _ | .integer _, _ | .boolean _, _ | .date _, _ => rfl

theorem itemsToJson_itemsWritten : ∀ (items : List Value) (path : String) (index : Nat),
    itemsToJson path index (itemsWritten items) = itemsToJson path index items
  | [], _, _ => rfl
  | item :: rest, path, index => by
    rw [itemsWritten, itemsToJson, itemsToJson, toJson_written item, itemsToJson_itemsWritten rest]

theorem fieldsToJson_fieldsWritten : ∀ (fields : List (String × Value)) (path : String),
    fieldsToJson path (fieldsWritten fields) = fieldsToJson path fields
  | [], _ => rfl
  | (name, value) :: rest, path => by
    rw [fieldsWritten, fieldsToJson, fieldsToJson, isNull_written, toJson_written value,
      fieldsToJson_fieldsWritten rest]

end

mutual

/-- A value as it is written has the same layout. -/
theorem toLayout_written : ∀ (value : Value) (path : String),
    value.written.toLayout path = value.toLayout path
  | .decimal value, path => by rw [written, toLayout, toLayout, decimalText, decimalText, value.text?_written]
  | .list items, path => by rw [written, toLayout, toLayout, itemsToLayout_itemsWritten items path 0]
  | .object _ fields, path => by rw [written, toLayout, toLayout, fieldsToLayout_fieldsWritten fields path]
  | .null, _ | .text _, _ | .uri _, _ | .integer _, _ | .boolean _, _ | .date _, _ => rfl

theorem itemsToLayout_itemsWritten : ∀ (items : List Value) (path : String) (index : Nat),
    itemsToLayout path index (itemsWritten items) = itemsToLayout path index items
  | [], _, _ => rfl
  | item :: rest, path, index => by
    have first := toLayout_written item (itemPath path index)
    have others := itemsToLayout_itemsWritten rest path (index + 1)
    cases item <;> simp only [itemsWritten, written, itemsToLayout, ← first, others]

theorem fieldsToLayout_fieldsWritten : ∀ (fields : List (String × Value)) (path : String),
    fieldsToLayout path (fieldsWritten fields) = fieldsToLayout path fields
  | [], _ => rfl
  | (name, value) :: rest, path => by
    rw [fieldsWritten, fieldsToLayout, fieldsToLayout, isNull_written, toLayout_written value,
      fieldsToLayout_fieldsWritten rest]

end

end Value

namespace Instance

theorem toJsonText_written (instanceValue : Instance) :
    instanceValue.written.toJsonText = instanceValue.toJsonText := by
  rw [toJsonText, toJsonText, toJson, toJson, written, Value.fieldsToJson_fieldsWritten]

theorem toIndentedJsonText_written (instanceValue : Instance) :
    instanceValue.written.toIndentedJsonText = instanceValue.toIndentedJsonText := by
  rw [toIndentedJsonText, toIndentedJsonText, toJson, toJson, written, Value.fieldsToJson_fieldsWritten]

theorem toBlockText_written (instanceValue : Instance) :
    instanceValue.written.toBlockText = instanceValue.toBlockText := by
  rw [toBlockText, toBlockText, written, Value.fieldsToLayout_fieldsWritten]

end Instance

namespace ObjectModel

variable {model : ObjectModel} {className : String} {classModel : ClassModel} {instanceValue : Instance}

/-- From both of its JSON texts, an instance is loaded as it is written. -/
theorem exists_loadJson_written (wellFormed : model.WellFormed)
    (found : model.class? className = some classModel) (named : instanceValue.className = className)
    (each : FieldsMeet model classModel.fields instanceValue.fields)
    (scales : instanceValue.toValue.HasWritableScales) (shallow : instanceValue.toValue.depth ≤ Json.maxDepth)
    (ordinary : Json.numberKey ∉ instanceValue.toValue.writtenNames) :
    ∃ compactText indentedText, instanceValue.toJsonText = .ok compactText ∧
      instanceValue.toIndentedJsonText = .ok indentedText ∧
      model.loadJson className compactText = .ok instanceValue.written ∧
      model.loadJson className indentedText = .ok instanceValue.written := by
  have meets : ValueMeets model ⟨.instanceOf className, false, true⟩ instanceValue.toValue := by
    rw [Instance.toValue, named]
    exact .object found each
  let data : Data := .map (Value.fieldsToData Value.jsonSpelling instanceValue.fields)
  have encoded : instanceValue.toJson = .ok data :=
    by rw [Instance.toJson_of_meets each, if_neg scales.leastZero_not_mem, Instance.toValue, Value.toData]
  have legible : Json.IsLegible Json.maxDepth data := by
    have legible := isLegible_of_meets wellFormed meets scales ordinary shallow
    rwa [Instance.toValue, Value.toData] at legible
  have rebuilt := constructClass_fieldsToData wellFormed recoverable_jsonSpelling found named each scales
  have loaded {text : String} (read : Json.read? text = some data) :
      model.loadJson className text = .ok instanceValue.written := by
    simp only [loadJson, found, read, loadData, data, rebuilt]
    rfl
  refine ⟨Json.compact data, Json.indented data, ?_, ?_, loaded (Json.read?_compact legible),
    loaded (Json.read?_indented legible)⟩
  · rw [Instance.toJsonText, encoded]
    rfl
  · rw [Instance.toIndentedJsonText, encoded]
    rfl

/-- From its block text, an instance is loaded as it is written. -/
theorem exists_loadBlock_written (wellFormed : model.WellFormed)
    (found : model.class? className = some classModel) (named : instanceValue.className = className)
    (each : FieldsMeet model classModel.fields instanceValue.fields)
    (scales : instanceValue.toValue.HasWritableScales) (shallow : instanceValue.toValue.depth ≤ Yaml.maxDepth)
    (short : ∀ name ∈ instanceValue.toValue.writtenNames, (Block.key name).length ≤ 1024) :
    ∃ text, instanceValue.toBlockText = .ok text ∧
      model.loadBlock className text = .ok instanceValue.written := by
  let layouts := Value.fieldsLayout instanceValue.fields
  let data := Value.fieldsToData Value.blockSpelling instanceValue.fields
  have legible : Block.entriesAreLegible layouts := entriesAreLegible_layout each scales short
  have source := Block.ofText_documentText legible
    (Nat.le_trans (Value.depth_layout_le instanceValue.toValue) shallow)
  have read : model.readBlock classModel (Block.documentText layouts) = .ok data := by
    have entries := readEntries_layout wellFormed found each scales [] (fun _ member => member)
      (wellFormed.distinct found) (by simp [Table.keys])
    simp only [readBlock, source, Node.entries?, orMalformed, layouts, entries, bind, Except.bind,
      List.nil_append, if_true]
    rfl
  have rebuilt := constructClass_fieldsToData wellFormed recoverable_blockSpelling found named each scales
  refine ⟨Block.documentText layouts, ?_, ?_⟩
  · rw [Instance.toBlockText, fieldsToLayout_of_meet each scales]
    rfl
  · simp only [loadBlock, found, read, mapError_ok, bind, Except.bind, data, rebuilt]

end ObjectModel

/-- A constructed instance of a compiled schema has a compact and an indented JSON text and a block text, and
what is loaded from any of them has the very same texts. No scale of a decimal is the least of 64 bits, nothing
is nested deeper than the readers go, no attribute has the name that the JSON reader keeps for numbers, and the
names of attributes are written shortly enough to be keys of block text. -/
theorem Compilation.exists_same_texts {settings : Settings} {document : Document} {compilation : Compilation}
    (compiled : ofDocument settings document = .ok compilation) {className : String} {classModel : ClassModel}
    (found : compilation.model.class? className = some classModel) {mode : CoercionMode} {entries : Table Data}
    {instanceValue : Instance}
    (constructed : compilation.model.constructClass mode classModel entries = .ok instanceValue)
    (scales : instanceValue.toValue.HasWritableScales) (shallow : instanceValue.toValue.depth ≤ Json.maxDepth)
    (ordinary : Json.numberKey ∉ instanceValue.toValue.writtenNames)
    (short : ∀ name ∈ instanceValue.toValue.writtenNames, (Block.key name).length ≤ 1024) :
    ∃ compactText indentedText blockText fromCompact fromIndented fromBlock,
      instanceValue.toJsonText = .ok compactText ∧ instanceValue.toIndentedJsonText = .ok indentedText ∧
      instanceValue.toBlockText = .ok blockText ∧
      compilation.model.loadJson className compactText = .ok fromCompact ∧
      compilation.model.loadJson className indentedText = .ok fromIndented ∧
      compilation.model.loadBlock className blockText = .ok fromBlock ∧
      ∀ back ∈ [fromCompact, fromIndented, fromBlock], back.toJsonText = .ok compactText ∧
        back.toIndentedJsonText = .ok indentedText ∧ back.toBlockText = .ok blockText := by
  have wellFormed := ObjectModel.wellFormed_of_ofDocument (parts_of_ofDocument compiled).1
  obtain ⟨named, each⟩ := ObjectModel.meets_of_constructClass _ mode wellFormed found constructed
  obtain ⟨compactText, indentedText, compact, indented, fromCompact, fromIndented⟩ :=
    ObjectModel.exists_loadJson_written wellFormed found named each scales shallow ordinary
  obtain ⟨blockText, block, fromBlock⟩ := ObjectModel.exists_loadBlock_written wellFormed found named each
    scales (Nat.le_trans shallow (by decide)) short
  refine ⟨compactText, indentedText, blockText, _, _, _, compact, indented, block, fromCompact, fromIndented,
    fromBlock, ?_⟩
  simp only [List.forall_mem_cons, List.not_mem_nil, false_implies, implies_true, and_true, and_self,
    Instance.toJsonText_written, Instance.toIndentedJsonText_written, Instance.toBlockText_written]
  exact ⟨compact, indented, block⟩

/-- A person with an age, a nickname and a friend has the same texts whichever of them it is loaded from. -/
theorem Compilation.exists_same_texts_ada : ∃ compilation,
    ofDocument {} .people = .ok compilation ∧ compilation.model.class? "Person" = some .person ∧
      compilation.model.constructClass .lenient .person adaEntries = .ok .ada ∧
      Instance.ada.toValue.HasWritableScales ∧ Instance.ada.toValue.depth ≤ Json.maxDepth ∧
      Json.numberKey ∉ Instance.ada.toValue.writtenNames ∧
      (∀ name ∈ Instance.ada.toValue.writtenNames, (Block.key name).length ≤ 1024) ∧
      ∃ compactText indentedText blockText fromCompact fromIndented fromBlock,
        Instance.ada.toJsonText = .ok compactText ∧ Instance.ada.toIndentedJsonText = .ok indentedText ∧
        Instance.ada.toBlockText = .ok blockText ∧
        compilation.model.loadJson "Person" compactText = .ok fromCompact ∧
        compilation.model.loadJson "Person" indentedText = .ok fromIndented ∧
        compilation.model.loadBlock "Person" blockText = .ok fromBlock ∧
        ∀ back ∈ [fromCompact, fromIndented, fromBlock], back.toJsonText = .ok compactText ∧
          back.toIndentedJsonText = .ok indentedText ∧ back.toBlockText = .ok blockText := by
  obtain ⟨compilation, compiled, found, constructed⟩ := exists_ada
  have scales := Instance.hasWritableScales_ada
  have shallow : Instance.ada.toValue.depth ≤ Json.maxDepth := by decide
  have ordinary : Json.numberKey ∉ Instance.ada.toValue.writtenNames := by decide
  have short : ∀ name ∈ Instance.ada.toValue.writtenNames, (Block.key name).length ≤ 1024 := by decide +kernel
  exact ⟨compilation, compiled, found, constructed, scales, shallow, ordinary, short,
    exists_same_texts compiled found constructed scales shallow ordinary short⟩

end ClassSchema
