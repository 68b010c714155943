import ClassSchema.Graph.Turtle
import ClassSchema.Proofs.Agreement
import ClassSchema.Proofs.Artifacts
import ClassSchema.Proofs.BlockReadings
import ClassSchema.Proofs.Outcomes

/-! # Closed references

Every class that is referred to in an object model, a validation document or a semantic graph is there, in the
same artifact. So what is done where a class is missing is never done: no construction and no reading of block
text reports a missing class, and no property of a graph is written without the class of its values.
-/

namespace ClassSchema

open Yaml (Node)

/-- Whether every class that the values of a table refer to has a value in the table. -/
def Table.IsClosed {α : Type} (classNames : α → List String) (table : Table α) : Prop :=
  ∀ value ∈ table.values, ∀ target ∈ classNames value, table.has target = true

/-- The classes that the fields refer to, in their order. -/
def ClassModel.classNames (classModel : ClassModel) : List String :=
  classModel.fields.filterMap fun field => field.range.className?

theorem ClassModel.mem_classNames_iff {classModel : ClassModel} {target : String} :
    target ∈ classModel.classNames ↔ ∃ field ∈ classModel.fields, field.range = .instanceOf target := by
  simp only [classNames, List.mem_filterMap, Range.className?_eq_some_iff]

/-- A table that is made entry by entry is closed if all that it refers to was there. -/
theorem Table.isClosed_of_forall₂ {α β : Type} {source : Table α} {table : Table β}
    {makes : String × α → String × β → Prop} {classNames : β → List String} (each : List.Forall₂ makes source table)
    (keeps : ∀ entry result, makes entry result → entry.1 = result.1)
    (known : ∀ entry result, makes entry result → ∀ target ∈ classNames result.2, source.has target = true) :
    table.IsClosed classNames := by
  have keys : source.keys = table.keys := map_eq_map_of_forall₂ keeps each
  intro value isValue target refers
  obtain ⟨result, isResult, rfl⟩ := List.mem_map.mp isValue
  obtain ⟨entry, _, made⟩ := exists_of_mem_forall₂ each isResult
  have present := known entry result made target refers
  rwa [has_iff_mem_keys, keys, ← has_iff_mem_keys] at present

section Generated

variable {document : Document}

theorem ObjectModel.isClosed_of_ofDocument {model : ObjectModel} (modelled : ofDocument document = .ok model) :
    model.classes.IsClosed ClassModel.classNames := by
  obtain ⟨resolver, resolves, classes, each, rfl⟩ := ofDocument_eq_ok_iff.mp modelled
  refine Table.isClosed_of_forall₂ each ?_ ?_
  · rintro _ _ ⟨_, _, rfl⟩
    rfl
  · rintro _ _ ⟨resolved, success, rfl⟩ target refers
    obtain ⟨field, isField, range⟩ := ClassModel.mem_classNames_iff.mp refers
    obtain ⟨attr, isAttribute, rfl⟩ := List.mem_map.mp isField
    rw [← RangeResolver.document_of_ofDocument resolves]
    exact RangeResolver.has_of_resolveClass success isAttribute range

theorem ValidationDocument.isClosed_of_ofDocument {validation : ValidationDocument}
    (constrained : ofDocument document = .ok validation) :
    validation.classes.IsClosed ClassConstraints.classNames := by
  obtain ⟨resolver, resolves, classes, each, rfl⟩ := ofDocument_eq_ok_iff.mp constrained
  refine Table.isClosed_of_forall₂ each ?_ ?_
  · rintro _ _ ⟨_, _, rfl⟩
    rfl
  · rintro _ _ ⟨resolved, success, rfl⟩ target refers
    obtain ⟨property, isProperty, range⟩ := List.mem_filterMap.mp refers
    obtain ⟨attr, isAttribute, rfl⟩ := List.mem_map.mp isProperty
    rw [← RangeResolver.document_of_ofDocument resolves]
    exact RangeResolver.has_of_resolveClass success isAttribute (Range.className?_eq_some_iff.mp range)

theorem SchemaGraph.isClosed_of_ofDocument {graph : SchemaGraph} (graphed : ofDocument document = .ok graph) :
    graph.shapes.IsClosed Shape.classNames := by
  obtain ⟨resolver, resolves, _, _, shapes, each, rfl⟩ := ofDocument_eq_ok_iff.mp graphed
  refine Table.isClosed_of_forall₂ each ?_ ?_
  · rintro _ _ ⟨_, _, rfl⟩
    rfl
  · rintro _ _ ⟨shape, made, rfl⟩ target refers
    obtain ⟨_, _, resolved, success, properties, fromAttributes, rfl⟩ := Shape.ofClass_eq_ok_iff.mp made
    obtain ⟨property, isProperty, range⟩ := List.mem_filterMap.mp refers
    obtain ⟨attr, isAttribute, fromAttribute⟩ := exists_of_mem_forall₂ fromAttributes isProperty
    obtain ⟨_, _, rfl⟩ := ShapeProperty.ofAttribute_eq_ok_iff.mp fromAttribute
    rw [Datatype.className?_ofRange, Range.className?_eq_some_iff] at range
    rw [← RangeResolver.document_of_ofDocument resolves]
    exact RangeResolver.has_of_resolveClass success isAttribute range

end Generated

/-- The fields of a class of a well-formed model have known ranges. -/
theorem ObjectModel.WellFormed.isKnown {model : ObjectModel} (wellFormed : model.WellFormed) {className : String}
    {classModel : ClassModel} (found : model.class? className = some classModel) :
    ∀ field ∈ classModel.fields, field.range.IsKnown model := by
  intro field isField
  cases range : field.range with
  | scalar kind => trivial
  | instanceOf target => exact wellFormed.closed found isField range

theorem Range.IsKnown.exists_class? {model : ObjectModel} {className : String}
    (known : (Range.instanceOf className).IsKnown model) : ∃ classModel, model.class? className = some classModel :=
  Option.isSome_iff_exists.mp known

theorem ne_of_head? {text other : String} (differ : text.toList.head? ≠ other.toList.head?) : text ≠ other := by
  rintro rfl
  exact differ rfl

/-- Whether no fault says that a class is missing. -/
def MissesNoClass (errors : List CoercionError) : Prop :=
  ∀ error ∈ errors, error.reason.message ≠ "class is not defined in this schema"

theorem missesNoClass_nil : MissesNoClass [] :=
  nofun

theorem missesNoClass_fault {error : CoercionError}
    (other : error.reason.message ≠ "class is not defined in this schema") :
    MissesNoClass (Outcome.fault error).errors := by
  intro fault member
  rwa [List.mem_singleton.mp member]

/-- Why a scalar is refused: the data has another type, or its text spells no scalar of the kind. -/
theorem coerceScalar_error_cases {mode : CoercionMode} {kind : ScalarKind} {data : Data} {reason : CoercionReason}
    (refused : coerceScalar mode kind data = .error reason) :
    (∃ wanted, reason = .wrongType data.typeName wanted) ∨ (∃ error, reason = .integer error) ∨
      (∃ error, reason = .decimal error) ∨ (∃ error, reason = .date error) ∨ reason = .boolean ∨ reason = .uri := by
  have wrapped {α β ε : Type} {result : Except ε α} {make : α → β} {wrap : ε → CoercionReason}
      (failure : (result.map make).mapError wrap = .error reason) : ∃ error, reason = wrap error := by
    cases result with
    | ok value => cases failure
    | error error =>
      cases failure
      exact ⟨error, rfl⟩
  cases kind with
  | integer =>
    simp only [coerceScalar, coerceInteger] at refused
    split at refused
    · cases refused
      exact .inl ⟨_, rfl⟩
    · exact .inr (.inl (wrapped refused))
  | decimal =>
    simp only [coerceScalar, coerceDecimal] at refused
    split at refused
    · cases refused
      exact .inl ⟨_, rfl⟩
    · exact .inr (.inr (.inl (wrapped refused)))
  | boolean => cases data <;> simp only [coerceScalar, coerceBoolean] at refused <;> grind [Data.typeName]
  | string => cases data <;> cases refused <;> exact .inl ⟨_, rfl⟩
  | date =>
    cases data with
    | text value => exact .inr (.inr (.inr (.inl (wrapped refused))))
    | _ =>
      cases refused
      exact .inl ⟨_, rfl⟩
  | uri =>
    cases data with
    | text value =>
      simp only [coerceScalar] at refused
      split at refused <;> cases refused
      simp
    | _ =>
      cases refused
      exact .inl ⟨_, rfl⟩

/-- No type of data is called a class. -/
theorem head?_typeName_append (data : Data) (rest : String) :
    (data.typeName ++ rest).toList.head? ≠ "class is not defined in this schema".toList.head? := by
  cases data <;> simp [Data.typeName]

/-- The wordings for decimals start in two ways. -/
theorem DecimalError.head?_message (error : DecimalError) :
    error.message.toList.head? = some 'e' ∨ error.message.toList.head? = some 'n' := by
  cases error with
  | empty => exact .inl rfl
  | strangeCharacter => exact .inr rfl
  | emptyMantissa => exact .inr rfl
  | numeral error =>
    change _ ∨ ("not a decimal literal: " ++ error.message).toList.head? = some 'n'
    simp
  | scaleOverflow literal =>
    change _ ∨ ("not a decimal literal: Exponent overflow when parsing '" ++ literal ++ "'").toList.head? = some 'n'
    simp

/-- No scalar is refused in the words for a missing class. -/
theorem message_of_coerceScalar {mode : CoercionMode} {kind : ScalarKind} {data : Data} {reason : CoercionReason}
    (refused : coerceScalar mode kind data = .error reason) :
    reason.message ≠ "class is not defined in this schema" := by
  rcases coerceScalar_error_cases refused with ⟨wanted, rfl⟩ | ⟨error, rfl⟩ | ⟨error, rfl⟩ | ⟨error, rfl⟩ | rfl | rfl
  · apply ne_of_head?
    simpa [CoercionReason.message, toString] using head?_typeName_append data (" is not " ++ wanted)
  · cases error <;> simp [CoercionReason.message, IntegerError.message]
  · apply ne_of_head?
    rw [CoercionReason.message]
    rcases error.head?_message with isHead | isHead <;> simp [isHead]
  · cases error <;> simp [CoercionReason.message, DateError.message]
  · simp [CoercionReason.message]
  · simp [CoercionReason.message]

namespace ObjectModel

variable {model : ObjectModel} {mode : CoercionMode}

theorem missesNoClass_absent (field : Field) (path : String) : MissesNoClass (Outcome.absent field path).errors := by
  unfold Outcome.absent
  split
  · exact missesNoClass_fault (by simp [CoercionReason.message])
  · exact missesNoClass_nil

theorem missesNoClass_unknownKeys (classModel : ClassModel) (path : String) (entries : Table Data) :
    MissesNoClass (Outcome.unknownKeys classModel path entries) := by
  intro error member
  obtain ⟨⟨key, data⟩, _, made⟩ := List.mem_filterMap.mp member
  simp only [Option.ite_none_left_eq_some, Option.some.injEq] at made
  obtain ⟨_, rfl⟩ := made
  intro same
  have last := congrArg (fun text => text.toList.getLast?) same
  simp [CoercionReason.message, toString, List.getLast?_cons] at last

theorem missesNoClass_scalar (kind : ScalarKind) (path : String) (data : Data) :
    MissesNoClass (Outcome.scalar mode kind path data).errors := by
  unfold Outcome.scalar
  split
  · exact missesNoClass_nil
  · rename_i refused
    exact missesNoClass_fault (message_of_coerceScalar refused)

theorem missesNoClass_constructSingle_of_noMap {data : Data} (noMap : ∀ entries, data ≠ .map entries) {range : Range}
    (known : range.IsKnown model) (path : String) :
    MissesNoClass (constructSingle model mode range path data).errors := by
  rw [constructSingle_of_noMap model mode noMap]
  cases range with
  | scalar kind => exact missesNoClass_scalar kind path data
  | instanceOf className =>
    obtain ⟨classModel, found⟩ := known.exists_class?
    simp only [Outcome.noInstance, found]
    apply missesNoClass_fault
    apply ne_of_head?
    simpa [CoercionReason.message, toString] using head?_typeName_append data " is not a mapping"

theorem missesNoClass_constructSingle {data : Data} (value : ∀ field path, field.range.IsKnown model →
    MissesNoClass (constructValue model mode field path data).errors) {range : Range} (known : range.IsKnown model)
    (path : String) : MissesNoClass (constructSingle model mode range path data).errors := by
  by_cases isNull : data = .null
  · subst isNull
    exact missesNoClass_constructSingle_of_noMap (by simp) known path
  · have none := value (itemField range) path known
    rwa [constructValue_of_single model mode path rfl isNull] at none

theorem missesNoClass_constructItems {range : Range} {items : List Data}
    (each : ∀ item ∈ items, ∀ path, MissesNoClass (constructSingle model mode range path item).errors) (path : String)
    (index : Nat) : MissesNoClass (Outcome.list (constructItems model mode range path index items)).errors := by
  intro error member
  simp only [Outcome.list, constructItems_eq, List.flatMap_map] at member
  obtain ⟨item, isItem, inItem⟩ := List.mem_flatMap.mp member
  exact each item.1 (List.fst_mem_of_mem_zipIdx isItem) _ error inItem

theorem missesNoClass_constructEntries {classModel : ClassModel} {entries : Table Data} (value : ∀ entry ∈ entries,
      ∀ field ∈ classModel.fields, ∀ path, MissesNoClass (constructValue model mode field path entry.2).errors)
    (path : String) : MissesNoClass (constructEntries model mode classModel path entries).errors := by
  intro error member
  rw [errors_constructEntries, List.mem_append] at member
  rcases member with isUnknown | isKnown
  · exact missesNoClass_unknownKeys classModel path entries error isUnknown
  · obtain ⟨field, isField, inField⟩ := List.mem_flatMap.mp isKnown
    rw [constructField_eq] at inField
    cases read : entries.get? field.name with
    | none =>
      rw [read] at inField
      exact missesNoClass_absent field _ error inField
    | some data =>
      rw [read] at inField
      exact value _ (Table.mem_of_get? read) field isField _ error inField

theorem missesNoClass_constructSingle_map (wellFormed : model.WellFormed) {entries : Table Data}
    (value : ∀ entry ∈ entries, ∀ field path, field.range.IsKnown model →
      MissesNoClass (constructValue model mode field path entry.2).errors) {range : Range} (known : range.IsKnown model)
    (path : String) : MissesNoClass (constructSingle model mode range path (.map entries)).errors := by
  cases range with
  | scalar kind =>
    rw [constructSingle]
    exact missesNoClass_scalar kind path (.map entries)
  | instanceOf className =>
    obtain ⟨classModel, found⟩ := known.exists_class?
    rw [constructSingle_map model mode found]
    exact missesNoClass_constructEntries (fun entry member field isField path =>
      value entry member field path (wellFormed.isKnown found field isField)) path

/-- No fault of the data for a field says that a class is missing. -/
theorem missesNoClass_constructValue (wellFormed : model.WellFormed) (data : Data) : ∀ field path,
    field.range.IsKnown model → MissesNoClass (constructValue model mode field path data).errors := by
  induction data using Data.inductionOn with
  | leaf data noList noMap =>
    intro field path known
    cases data with
    | null => exact missesNoClass_absent field path
    | list items => exact absurd rfl (noList items)
    | map entries => exact absurd rfl (noMap entries)
    | _ =>
      simp only [constructValue]
      split
      · exact missesNoClass_fault (by simp [CoercionReason.message])
      · exact missesNoClass_constructSingle_of_noMap noMap known path
  | list items ih =>
    intro field path known
    cases several : field.multivalued with
    | false =>
      simp only [constructValue, several, Bool.false_eq_true, if_false]
      exact missesNoClass_constructSingle_of_noMap (by simp) known path
    | true =>
      have each := missesNoClass_constructItems
        (fun item member => missesNoClass_constructSingle (ih item member) known) path 0
      simp only [constructValue, several, if_true]
      split
      · exact List.forall_mem_cons.mpr ⟨by simp [CoercionReason.message], each⟩
      · exact each
  | map entries ih =>
    intro field path known
    cases several : field.multivalued with
    | true =>
      simp only [constructValue, several, if_true]
      exact missesNoClass_fault (by simp [CoercionReason.message])
    | false =>
      simp only [constructValue, several, Bool.false_eq_true, if_false]
      exact missesNoClass_constructSingle_map wellFormed ih known path

variable (mode) in
/-- No construction of a class reports that a class is missing. -/
theorem missesNoClass_constructClass (wellFormed : model.WellFormed) {className : String} {classModel : ClassModel}
    (found : model.class? className = some classModel) (entries : Table Data) :
    MissesNoClass (reported (model.constructClass mode classModel entries)) := by
  rw [reported_constructClass]
  exact missesNoClass_constructEntries (fun entry _ field isField path =>
    missesNoClass_constructValue wellFormed entry.2 field path (wellFormed.isKnown found field isField)) ""

/-- Whether a reading does not fail for a missing class. -/
def FindsClasses {α : Type} (reading : Except BlockError α) : Prop :=
  ∀ name, reading ≠ .error (.undefinedClass name)

theorem findsClasses_ok {α : Type} (value : α) : FindsClasses (.ok value) :=
  nofun

theorem findsClasses_malformed {α : Type} : FindsClasses (.error .malformed : Except BlockError α) :=
  nofun

theorem FindsClasses.bind {α β : Type} {first : Except BlockError α} {second : α → Except BlockError β}
    (finds : FindsClasses first) (others : ∀ value, FindsClasses (second value)) : FindsClasses (first >>= second) := by
  intro name failure
  cases result : first with
  | ok value =>
    rw [result] at failure
    exact others value name failure
  | error error =>
    rw [result] at failure
    cases failure
    exact finds name result

theorem FindsClasses.map {α β : Type} {reading : Except BlockError α} (finds : FindsClasses reading) (f : α → β) :
    FindsClasses (reading.map f) := by
  intro name failure
  cases result : reading with
  | ok value =>
    rw [result] at failure
    cases failure
  | error error =>
    rw [result] at failure
    cases failure
    exact finds name result

theorem findsClasses_orMalformed {α : Type} (value? : Option α) : FindsClasses (orMalformed value?) := by
  cases value?
  · exact findsClasses_malformed
  · exact findsClasses_ok _

theorem findsClasses_requireEmpty {α : Type} (items? : Option (List α)) : FindsClasses (requireEmpty items?) := by
  unfold requireEmpty
  split
  · exact findsClasses_ok _
  · exact findsClasses_malformed

theorem findsClasses_mappingData {range : Range} (known : range.IsKnown model)
    {read : ClassModel → Except BlockError (Table Data)}
    (each : ∀ className classModel, model.class? className = some classModel → FindsClasses (read classModel)) :
    FindsClasses (model.mappingData range read) := by
  cases range with
  | scalar kind => exact findsClasses_malformed
  | instanceOf className =>
    obtain ⟨classModel, found⟩ := known.exists_class?
    simp only [mappingData, found]
    exact (each className classModel found).map _

theorem findsClasses_scalarData {range : Range} (known : range.IsKnown model) (node : Node) :
    FindsClasses (model.scalarData range node) := by
  cases range with
  | scalar kind => exact (findsClasses_orMalformed _).map _
  | instanceOf className =>
    exact findsClasses_mappingData known fun _ _ _ => (findsClasses_requireEmpty _).map _

theorem findsClasses_fieldScalarData {field : Field} (known : field.range.IsKnown model) (node : Node) :
    FindsClasses (model.fieldScalarData field node) := by
  unfold fieldScalarData
  split
  · exact findsClasses_malformed
  · exact findsClasses_ok _
  · split
    · exact (findsClasses_requireEmpty _).map _
    · exact findsClasses_scalarData known node

mutual

theorem findsClasses_readElement (wellFormed : model.WellFormed) : ∀ (node : Node) {range : Range},
    range.IsKnown model → FindsClasses (readElement model range node)
  | .scalar tag style text, _, known => findsClasses_scalarData known (.scalar tag style text)
  | .mapping _ entries, _, known => findsClasses_mappingData known fun _ _ found =>
      findsClasses_readEntries wellFormed entries (wellFormed.isKnown found) []
  | .sequence _ _, _, known => findsClasses_mappingData known fun _ _ _ => findsClasses_malformed
  | .broken, _, _ => findsClasses_malformed

theorem findsClasses_readElements (wellFormed : model.WellFormed) : ∀ (nodes : List Node) {range : Range},
    range.IsKnown model → FindsClasses (readElements model range nodes)
  | [], _, _ => findsClasses_ok []
  | node :: rest, _, known => (findsClasses_readElement wellFormed node known).bind fun _ =>
      (findsClasses_readElements wellFormed rest known).bind fun _ => findsClasses_ok _

theorem findsClasses_readAttribute (wellFormed : model.WellFormed) : ∀ (node : Node) {field : Field},
    field.range.IsKnown model → FindsClasses (readAttribute model field node)
  | .scalar tag style text, _, known => findsClasses_fieldScalarData known (.scalar tag style text)
  | .sequence _ items, field, known => by
    simp only [readAttribute]
    split
    · exact (findsClasses_readElements wellFormed items known).map _
    · exact findsClasses_mappingData known fun _ _ _ => findsClasses_malformed
  | .mapping _ entries, field, known => by
    simp only [readAttribute]
    split
    · exact findsClasses_malformed
    · exact findsClasses_mappingData known fun _ _ found =>
        findsClasses_readEntries wellFormed entries (wellFormed.isKnown found) []
  | .broken, _, _ => findsClasses_malformed

/-- No entries for fields of known ranges fail for a missing class. -/
theorem findsClasses_readEntries (wellFormed : model.WellFormed) : ∀ (entries : List (Node × Node))
    {classModel : ClassModel}, (∀ field ∈ classModel.fields, field.range.IsKnown model) → ∀ table,
      FindsClasses (readEntries model classModel table entries)
  | [], _, _, table => findsClasses_ok table
  | (key, node) :: rest, classModel, known, table => by
    refine (findsClasses_orMalformed key.text?).bind fun name => ?_
    split
    · exact nofun
    · have others (value : Data) := findsClasses_readEntries wellFormed rest known (table ++ [(name, value)])
      cases declared : classModel.field? name with
      | none => exact (findsClasses_orMalformed _).bind others
      | some field =>
        have isField := List.mem_of_find?_eq_some declared
        exact (findsClasses_readAttribute wellFormed node (known field isField)).bind others

end

/-- No block text fails for a missing class. -/
theorem findsClasses_readBlock (wellFormed : model.WellFormed) {className : String} {classModel : ClassModel}
    (found : model.class? className = some classModel) (text : String) :
    FindsClasses (model.readBlock classModel text) := by
  refine (findsClasses_orMalformed _).bind fun entries => ?_
  refine (findsClasses_readEntries wellFormed entries (wellFormed.isKnown found) []).bind fun table => ?_
  split
  · exact findsClasses_ok table
  · exact findsClasses_malformed

/-- No failure of reading block text is worded like a missing class. -/
theorem detail?_of_readBlock (wellFormed : model.WellFormed) {className : String} {classModel : ClassModel}
    (found : model.class? className = some classModel) {text : String} {error : BlockError}
    (failure : model.readBlock classModel text = .error error) (name : String) :
    error.detail? ≠ some s!"class '{name}' is not defined" := by
  cases error with
  | malformed => nofun
  | duplicateAttribute attr =>
    intro same
    have heads := congrArg (fun text => text.toList.head?) (Option.some.inj same)
    simp [toString] at heads
  | undefinedClass other => exact absurd failure (findsClasses_readBlock wellFormed found text other)

/-- No text in any format gives an instance a fault that says that a class is missing. -/
theorem missesNoClass_load (wellFormed : model.WellFormed) {className : String} {classModel : ClassModel}
    (found : model.class? className = some classModel) {format : Format} {text : String} {error : ConstructionError}
    (failure : model.load format className text = .error (.construction error)) : MissesNoClass error.errors := by
  have constructed {mode : CoercionMode} {entries : Table Data}
      (failure : (model.constructClass mode classModel entries).mapError .construction =
        .error (LoadError.construction error)) : MissesNoClass error.errors := by
    have none := missesNoClass_constructClass mode wellFormed found entries
    cases result : model.constructClass mode classModel entries with
    | ok instanceValue =>
      rw [result] at failure
      cases failure
    | error other =>
      rw [result] at failure none
      cases failure
      exact none
  cases format with
  | json =>
    simp only [load, loadJson, found] at failure
    split at failure
    · cases failure
    · unfold loadData at failure
      split at failure
      · exact constructed failure
      · cases failure
  | block =>
    simp only [load, loadBlock, found] at failure
    cases read : model.readBlock classModel text with
    | ok entries =>
      rw [read] at failure
      exact constructed failure
    | error other =>
      rw [read] at failure
      cases other <;> cases failure

end ObjectModel

namespace SchemaGraph

theorem infix_flatMap {α β : Type} {items : List α} {item : α} (member : item ∈ items) (lines : α → List β) :
    lines item <:+: items.flatMap lines := by
  obtain ⟨front, back, rfl⟩ := List.append_of_mem member
  exact ⟨front.flatMap lines, back.flatMap lines, by simp⟩

/-- The lines of a property stand together in the lines of the graph. -/
theorem propertyLines_infix_turtleLines {graph : SchemaGraph} {shape : Shape} (isShape : shape ∈ graph.shapes.values)
    {property : ShapeProperty} (isProperty : property ∈ shape.properties) :
    Turtle.propertyLines graph property <:+: graph.turtleLines := by
  have inProperties := infix_flatMap isProperty (Turtle.propertyLines graph)
  have inShape : shape.properties.flatMap (Turtle.propertyLines graph) <:+: Turtle.shapeLines graph shape :=
    List.infix_append _ _ _
  have inShapes := infix_flatMap isShape (Turtle.shapeLines graph)
  exact ((inProperties.trans inShape).trans inShapes).trans (List.suffix_append _ _).isInfix

/-- In a closed graph, the class that a property refers to has a shape, and the lines of the property name it. -/
theorem exists_classLine {graph : SchemaGraph} (closed : graph.shapes.IsClosed Shape.classNames) {shape : Shape}
    (isShape : shape ∈ graph.shapes.values) {property : ShapeProperty} (isProperty : property ∈ shape.properties)
    {target : String} (refers : property.datatype.className? = some target) :
    ∃ targetShape, graph.shape? target = some targetShape ∧
      Turtle.about 8 "sh:class" (.iri targetShape.iri) ∈ Turtle.propertyLines graph property := by
  have present := closed shape isShape target (List.mem_filterMap.mpr ⟨property, isProperty, refers⟩)
  obtain ⟨targetShape, found⟩ := Option.isSome_iff_exists.mp present
  have noLiteral : property.datatype.xsdName? = none := by
    cases datatype : property.datatype <;> simp [datatype, Datatype.className?, Datatype.xsdName?] at refers ⊢
  have inDatatype : Turtle.about 8 "sh:class" (.iri targetShape.iri) ∈
      Turtle.datatypeLines graph property.datatype := by
    simp [Turtle.datatypeLines, noLiteral, refers, shape?, found]
  refine ⟨targetShape, found, ?_⟩
  simp only [Turtle.propertyLines, List.mem_append]
  tauto

end SchemaGraph

/-- In a closed validation document, the references of its JSON are those by the names of its classes. -/
theorem ValidationDocument.exists_of_mem_references_toData {validation : ValidationDocument}
    (closed : validation.classes.IsClosed ClassConstraints.classNames) {reference : String}
    (refers : reference ∈ validation.toData.references) :
    ∃ target, validation.classes.has target = true ∧ reference = referenceText target := by
  rw [references_toData, references_definitions] at refers
  obtain ⟨entry, member, inEntry⟩ := List.mem_flatMap.mp refers
  obtain ⟨target, isTarget, rfl⟩ := List.mem_map.mp inEntry
  exact ⟨target, closed entry.2 (List.mem_map.mpr ⟨entry, member, rfl⟩) target isTarget, rfl⟩

/-- What is generated from a document refers to no class that is not there. For no data and in no mode does a
construction report a missing class, no block text is refused for one, and no text in any format; in Turtle every
property whose values are of a class has a line that names the class. -/
theorem Document.artifacts_are_closed (document : Document) :
    (∀ model, ObjectModel.ofDocument document = .ok model →
      model.classes.IsClosed ClassModel.classNames ∧
      ∀ className classModel, model.class? className = some classModel →
        (∀ mode entries, MissesNoClass (ObjectModel.reported (model.constructClass mode classModel entries))) ∧
        (∀ text error, model.readBlock classModel text = .error error →
          ∀ name : String, error.detail? ≠ some s!"class '{name}' is not defined") ∧
        ∀ format text error, model.load format className text = .error (.construction error) →
          MissesNoClass error.errors) ∧
    (∀ validation, ValidationDocument.ofDocument document = .ok validation →
      validation.classes.IsClosed ClassConstraints.classNames ∧
      ∀ reference ∈ validation.toData.references, ∃ target, validation.classes.has target = true ∧
        reference = referenceText target) ∧
    ∀ graph, SchemaGraph.ofDocument document = .ok graph →
      graph.shapes.IsClosed Shape.classNames ∧
      ∀ shape ∈ graph.shapes.values, ∀ property ∈ shape.properties,
        Turtle.propertyLines graph property <:+: graph.turtleLines ∧
        ∀ target, property.datatype.className? = some target → ∃ targetShape, graph.shape? target = some targetShape ∧
          Turtle.about 8 "sh:class" (.iri targetShape.iri) ∈ Turtle.propertyLines graph property := by
  refine ⟨?model, ?validation, ?graph⟩
  case model =>
    intro model modelled
    have wellFormed := ObjectModel.wellFormed_of_ofDocument modelled
    refine ⟨ObjectModel.isClosed_of_ofDocument modelled, fun className classModel found => ⟨?_, ?_, ?_⟩⟩
    · exact fun mode => ObjectModel.missesNoClass_constructClass mode wellFormed found
    · exact fun text error failure => ObjectModel.detail?_of_readBlock wellFormed found failure
    · exact fun format text error failure => ObjectModel.missesNoClass_load wellFormed found failure
  case validation =>
    intro validation constrained
    have closed := ValidationDocument.isClosed_of_ofDocument constrained
    exact ⟨closed, fun _ => ValidationDocument.exists_of_mem_references_toData closed⟩
  case graph =>
    intro graph graphed
    have closed := SchemaGraph.isClosed_of_ofDocument graphed
    refine ⟨closed, fun shape isShape property isProperty => ⟨?_, fun target => ?_⟩⟩
    · exact SchemaGraph.propertyLines_infix_turtleLines isShape isProperty
    · exact SchemaGraph.exists_classLine closed isShape isProperty

/-- Residents have a home, which is a place: wrong data and repeated attributes are reported for what they are, and
the property for the home names the class of places. -/
theorem Document.artifacts_are_closed_residents : ∃ model validation graph person loadFault shape property,
    ObjectModel.ofDocument .residents = .ok model ∧ ValidationDocument.ofDocument .residents = .ok validation ∧
      SchemaGraph.ofDocument .residents = .ok graph ∧
      model.class? "Person" = some person ∧ "Place" ∈ person.classNames ∧
      person ∈ model.classes.values ∧ model.classes.has "Place" = true ∧
      MissesNoClass (ObjectModel.reported (model.constructClass .typed person [("home", .number "5")])) ∧
      model.readBlock person "home: {name: a, name: b}" = .error (.duplicateAttribute "name") ∧
      (BlockError.duplicateAttribute "name").detail? ≠ some "class 'Place' is not defined" ∧
      model.load .json "Person" "\x7b\"home\": 5\x7d" = .error (.construction loadFault) ∧
      loadFault.errors ≠ [] ∧ MissesNoClass loadFault.errors ∧
      validation.classes.IsClosed ClassConstraints.classNames ∧
      shape ∈ graph.shapes.values ∧ property ∈ shape.properties ∧ property.datatype.className? = some "Place" ∧
      ∃ targetShape, graph.shape? "Place" = some targetShape ∧
        Turtle.about 8 "sh:class" (.iri targetShape.iri) ∈ Turtle.propertyLines graph property := by
  have models : ((ObjectModel.ofDocument .residents).toOption.any fun model =>
      (model.class? "Person").any fun person =>
        match model.readBlock person "home: {name: a, name: b}", model.load .json "Person" "\x7b\"home\": 5\x7d" with
        | .error (.duplicateAttribute "name"), .error (.construction loadFault) =>
          decide ("Place" ∈ person.classNames) && !loadFault.errors.isEmpty
        | _, _ => false) = true := by decide +kernel
  have graphs : ((SchemaGraph.ofDocument .residents).toOption.any fun graph =>
      graph.shapes.values.any fun shape => shape.properties.any fun property =>
        property.datatype.className? == some "Place") = true := by decide +kernel
  have constrained : (ValidationDocument.ofDocument .residents).isOk = true := by decide +kernel
  obtain ⟨validation, constrained⟩ := exists_eq_ok_of_isOk constrained
  cases modelled : ObjectModel.ofDocument .residents with
  | error error => simp [modelled, Except.toOption] at models
  | ok model =>
  cases graphed : SchemaGraph.ofDocument .residents with
  | error error => simp [graphed, Except.toOption] at graphs
  | ok graph =>
    simp only [modelled, Except.toOption, Option.any_some, Option.any_eq_true] at models
    obtain ⟨person, found, faults⟩ := models
    simp only [graphed, Except.toOption, Option.any_some, List.any_eq_true, beq_iff_eq] at graphs
    obtain ⟨shape, isShape, property, isProperty, leads⟩ := graphs
    split at faults
    · rename_i loadFault read loaded
      simp only [Bool.and_eq_true, decide_eq_true_eq, Bool.not_eq_true', List.isEmpty_eq_false_iff] at faults
      obtain ⟨inModel, inValidation, inGraph⟩ := artifacts_are_closed .residents
      obtain ⟨closed, reports⟩ := inModel model modelled
      obtain ⟨constructs, refuses, loads⟩ := reports "Person" person found
      have isValue := Table.mem_values_of_get? found
      exact ⟨model, validation, graph, person, loadFault, shape, property, rfl, constrained, rfl, found, faults.1,
        isValue, closed person isValue "Place" faults.1, constructs _ _, read, refuses _ _ read "Place", loaded,
        faults.2, loads _ _ _ loaded, (inValidation validation constrained).1, isShape, isProperty, leads,
        ((inGraph graph graphed).2 shape isShape property isProperty).2 "Place" leads⟩
    · cases faults

end ClassSchema
