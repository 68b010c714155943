import ClassSchema.Instance.Loading
import ClassSchema.Proofs.BlockNodes
import ClassSchema.Proofs.Reconstruction

/-! # Instances in block text and back

Writing a value that meets a constraint as block text succeeds, and its layout is legible. Its node is read
along the field tables as the data of the value with every scalar as a text, and such scalars coerce back
in the lenient mode. So every constructed instance is loaded again from the block text that is written of
it.
-/

namespace ClassSchema

open Block (Layout)
open Yaml (Node PlainWord)

/-- How a scalar is spelled in block text, as the data that is read of it. -/
def Value.blockSpelling : Value → Data
  | .text value => .text value
  | .uri value => .text value
  | .integer value => .text (toString value)
  | .decimal value => .text value.spelling
  | .boolean value => .text (boolText value)
  | .date value => .text value.text
  | _ => .null

/-- Scalars that are spelled in block text coerce back in the lenient mode. -/
theorem recoverable_blockSpelling : Recoverable .lenient Value.blockSpelling := by
  refine Recoverable.of_kinds (fun _ => rfl) (fun _ => rfl) (fun _ => rfl) ?_ ?_ ?_
  · intro value
    simp only [Value.blockSpelling, coerceInteger, numericLiteral?, if_true, parseInteger_toString]
    rfl
  · intro value above fits
    have parsed := Decimal.parse_spelling_eq fits (Decimal.ne_leastZero_of_lt above)
    simp only [Value.blockSpelling, coerceDecimal, numericLiteral?, if_true, parsed]
    rfl
  · intro value
    cases value <;> rfl

/-- A number literal is a plain word. -/
theorem NumberLiteral.plainWord_chars (literal : NumberLiteral) : PlainWord literal.chars := by
  have allowed (c : Char) (member : c ∈ literal.chars) : Yaml.isPlainChar c = true := by
    have literalChar := literal.isLiteralChar_of_mem member
    simp only [Decimal.isLiteralChar, Bool.or_eq_true, beq_iff_eq] at literalChar
    rcases literalChar with ((((digit | rfl) | rfl) | rfl) | rfl) | rfl
    · simp [Yaml.isPlainChar, Char.isAlphanum, digit]
    all_goals rfl
  obtain ⟨first, rest, split, digit⟩ := literal.exists_whole_eq_cons
  have starts : Yaml.startsWord first = true := by
    rw [Yaml.startsWord, Char.isAlphanum, digit, Bool.or_true, Bool.true_or]
  rw [chars, split] at allowed ⊢
  cases negative : literal.negative with
  | true =>
    simp only [signChars, negative, if_true, List.cons_append, List.nil_append] at allowed ⊢
    apply PlainWord.negative starts
    intro c member
    exact allowed c (List.mem_cons_of_mem _ (List.mem_cons_of_mem _ member))
  | false =>
    simp only [signChars, negative, Bool.false_eq_true, if_false, List.cons_append, List.nil_append]
      at allowed ⊢
    apply PlainWord.word starts
    intro c member
    exact allowed c (List.mem_cons_of_mem _ member)

/-- A plain number is not absent. -/
theorem NumberLiteral.isAbsent?_text (literal : NumberLiteral) :
    (Node.scalar none .plain literal.text).isAbsent? = some false := by
  obtain ⟨first, rest, split, numeric⟩ := literal.exists_chars_eq_cons
  have other (c : Char) (strange : c ≠ '-' ∧ c.isDigit = false) : first ≠ c := by
    rintro rfl
    rcases numeric with minus | digit
    · exact strange.1 minus
    · exact Bool.false_ne_true (strange.2.symm.trans digit)
  have noNull (word : String) (head : ∃ c rest, word.toList = c :: rest ∧ c ≠ '-' ∧ c.isDigit = false) :
      literal.text ≠ word := by
    rintro rfl
    obtain ⟨c, others, same, strange⟩ := head
    rw [text, String.toList_ofList, split] at same
    exact other c strange (List.cons.inj same).1
  have nonempty : literal.text ≠ "" := by
    intro empty
    have same := congrArg String.toList empty
    rw [text, String.toList_ofList, split] at same
    cases same
  simp [Node.isAbsent?, Yaml.isNullText, nonempty, noNull "null" ⟨_, _, rfl, by decide⟩,
    noNull "Null" ⟨_, _, rfl, by decide⟩, noNull "NULL" ⟨_, _, rfl, by decide⟩,
    noNull "~" ⟨_, _, rfl, by decide⟩]

namespace Value

mutual

/-- The layout of a value; attributes that are null are left out. -/
def layout : Value → Layout
  | .null => .quoted ""
  | .text value => .quoted value
  | .uri value => .quoted value
  | .date value => .quoted value.text
  | .integer value => .plain (toString value)
  | .decimal value => .plain value.spelling
  | .boolean value => .plain (boolText value)
  | .list items => .sequence (itemsLayout items)
  | .object _ fields => .mapping (fieldsLayout fields)

/-- The layouts of items. -/
def itemsLayout : List Value → List Layout
  | [] => []
  | item :: rest => item.layout :: itemsLayout rest

/-- The layouts of the attributes that have a value. -/
def fieldsLayout : List (String × Value) → List (String × Layout)
  | [] => []
  | (name, value) :: rest =>
    if value.isNull then fieldsLayout rest else (name, value.layout) :: fieldsLayout rest

end

mutual

/-- A layout is no deeper than its value. -/
theorem depth_layout_le : ∀ value : Value, value.layout.depth ≤ value.depth
  | .null | .text _ | .uri _ | .date _ | .integer _ | .decimal _ | .boolean _ => Nat.le_refl _
  | .list items => Nat.succ_le_succ (itemsDepth_layout_le items)
  | .object _ fields => Nat.succ_le_succ (entriesDepth_layout_le fields)

theorem itemsDepth_layout_le : ∀ items : List Value, Block.itemsDepth (itemsLayout items) ≤ itemsDepth items
  | [] => Nat.le_refl _
  | item :: rest => by
    have first := depth_layout_le item
    have others := itemsDepth_layout_le rest
    simp only [itemsLayout, Block.itemsDepth, itemsDepth]
    omega

theorem entriesDepth_layout_le : ∀ fields : List (String × Value),
    Block.entriesDepth (fieldsLayout fields) ≤ fieldsDepth fields
  | [] => Nat.le_refl _
  | (name, value) :: rest => by
    have first := depth_layout_le value
    have others := entriesDepth_layout_le rest
    rw [fieldsLayout]
    split
    · rw [fieldsDepth]
      omega
    · simp only [Block.entriesDepth, fieldsDepth]
      omega

end

/-- What the layout of a scalar is: it is written without fault, legible, and never read as absent, and its
text is how the scalar is spelled. -/
theorem exists_scalar_layout {kind : ScalarKind} {value : Value} (holds : kind.Holds value)
    (scales : value.HasWritableScales) :
    ∃ style text, value.layout.node = .scalar none style text ∧
      (Node.scalar none style text).isAbsent? = some false ∧ value.blockSpelling = .text text ∧
      value.layout.IsLegible ∧ ∀ path, value.toLayout path = .ok value.layout := by
  have plain (literal : NumberLiteral) : ∃ style text,
      (Layout.plain literal.text).node = .scalar none style text ∧
        (Node.scalar none style text).isAbsent? = some false ∧ Data.text literal.text = .text text ∧
        (Layout.plain literal.text).IsLegible := by
    refine ⟨.plain, literal.text, rfl, literal.isAbsent?_text, rfl, ?_⟩
    rw [Layout.IsLegible, NumberLiteral.text, String.toList_ofList]
    exact literal.plainWord_chars
  cases value with
  | text value => exact ⟨.doubleQuoted, value, rfl, rfl, rfl, trivial, fun _ => rfl⟩
  | uri value => exact ⟨.doubleQuoted, value, rfl, rfl, rfl, trivial, fun _ => rfl⟩
  | date value => exact ⟨.doubleQuoted, value.text, rfl, rfl, rfl, trivial, fun _ => rfl⟩
  | integer value =>
    obtain ⟨style, text, node, present, spelled, legible⟩ := plain (.ofInt value)
    rw [NumberLiteral.text_ofInt] at node spelled legible
    exact ⟨style, text, node, present, spelled, legible, fun _ => rfl⟩
  | decimal value =>
    have above : wordMin < value.scale := scales value (by simp [decimals])
    obtain ⟨literal, written, _⟩ := Decimal.exists_literal (ScalarKind.isWord_scale_of_holds holds)
      (Decimal.ne_leastZero_of_lt above)
    have same : literal.text = value.spelling := by rw [Decimal.spelling, written, Option.getD_some]
    obtain ⟨style, text, node, present, spelled, legible⟩ := plain literal
    rw [same] at node spelled legible
    refine ⟨style, text, node, present, spelled, legible, fun _ => ?_⟩
    rw [toLayout, decimalText, written, layout, ← same]
    rfl
  | boolean value =>
    refine ⟨.plain, boolText value, rfl, by cases value <;> rfl, rfl, ?_, fun _ => rfl⟩
    cases value <;> exact .word rfl (List.all_eq_true.mp rfl)
  | null => cases kind <;> cases holds
  | list items => cases kind <;> cases holds
  | object className fields => cases kind <;> cases holds

end Value

namespace ObjectModel

variable {model : ObjectModel}

mutual

/-- A value that is not null and meets a constraint is written as its layout. -/
theorem toLayout_of_meets : ∀ {constraint : ValueConstraint} {value : Value},
    ValueMeets model constraint value → value.HasWritableScales → value ≠ .null →
      ∀ path : String, value.toLayout path = .ok value.layout
  | _, _, .null, _, given, _ => absurd rfl given
  | _, _, .scalar holds, scales, _, path => by
    obtain ⟨_, _, _, _, _, _, written⟩ := Value.exists_scalar_layout holds scales
    exact written path
  | _, _, .object _ each, scales, _, path => by
    rw [Value.toLayout, fieldsToLayout_of_meet each scales, Value.layout]
    rfl
  | _, _, .list _ each, scales, _, path => by
    rw [Value.toLayout, itemsToLayout_of_meet each scales, Value.layout]
    rfl

/-- Single values are written as their layouts. -/
theorem itemsToLayout_of_meet : ∀ {range : Range} {items : List Value}, ItemsMeet model range items →
    (∀ decimal ∈ Value.itemsDecimals items, wordMin < decimal.scale) → ∀ (path : String) (index : Nat),
      Value.itemsToLayout path index items = .ok (Value.itemsLayout items)
  | _, _, .nil, _, _, _ => rfl
  | _, _, @ItemsMeet.cons _ _ item rest first others, scales, path, index => by
    obtain ⟨scalesFirst, scalesRest⟩ := List.forall_mem_append.mp scales
    have head := toLayout_of_meets first scalesFirst first.single.1 (itemPath path index)
    have tail := itemsToLayout_of_meet others scalesRest path (index + 1)
    have step : Value.itemsToLayout path index (item :: rest) = do
        let item ← item.toLayout (itemPath path index)
        let rest ← Value.itemsToLayout path (index + 1) rest
        return item :: rest := by
      rw [Value.itemsToLayout]
      exact first.single.2
    rw [step, head, tail, Value.itemsLayout]
    rfl

/-- Attributes are written as their layouts. -/
theorem fieldsToLayout_of_meet : ∀ {fields : List Field} {attributes : List (String × Value)},
    FieldsMeet model fields attributes →
      (∀ decimal ∈ Value.fieldsDecimals attributes, wordMin < decimal.scale) → ∀ path : String,
        Value.fieldsToLayout path attributes = .ok (Value.fieldsLayout attributes)
  | _, _, .nil, _, _ => rfl
  | _, _, @FieldsMeet.cons _ field _ value _ first others, scales, path => by
    obtain ⟨scalesFirst, scalesRest⟩ := List.forall_mem_append.mp scales
    have tail := fieldsToLayout_of_meet others scalesRest path
    rw [Value.fieldsToLayout, Value.fieldsLayout]
    split
    · exact tail
    · rename_i given
      have head :=
        toLayout_of_meets first scalesFirst (Value.ne_null_of_isNull given) (joinPath path field.name)
      rw [head, tail]
      rfl

end

mutual

/-- The layout of a value that meets a constraint is legible where names are short. -/
theorem isLegible_layout : ∀ {constraint : ValueConstraint} {value : Value},
    ValueMeets model constraint value → value.HasWritableScales →
      (∀ name ∈ value.writtenNames, (Block.key name).length ≤ 1024) → value.layout.IsLegible
  | _, _, .null, _, _ => trivial
  | _, _, .scalar holds, scales, _ => by
    obtain ⟨_, _, _, _, _, legible, _⟩ := Value.exists_scalar_layout holds scales
    exact legible
  | _, _, .object _ each, scales, short => entriesAreLegible_layout each scales short
  | _, _, .list _ each, scales, short => itemsAreLegible_layout each scales short

/-- The layouts of single values are legible. -/
theorem itemsAreLegible_layout : ∀ {range : Range} {items : List Value}, ItemsMeet model range items →
    (∀ decimal ∈ Value.itemsDecimals items, wordMin < decimal.scale) →
      (∀ name ∈ Value.itemsWrittenNames items, (Block.key name).length ≤ 1024) →
        Block.itemsAreLegible (Value.itemsLayout items)
  | _, _, .nil, _, _ => trivial
  | _, _, .cons first others, scales, short => by
    obtain ⟨scalesFirst, scalesRest⟩ := List.forall_mem_append.mp scales
    obtain ⟨shortFirst, shortRest⟩ := List.forall_mem_append.mp short
    exact ⟨isLegible_layout first scalesFirst shortFirst, itemsAreLegible_layout others scalesRest shortRest⟩

/-- The layouts of attributes are legible. -/
theorem entriesAreLegible_layout : ∀ {fields : List Field} {attributes : List (String × Value)},
    FieldsMeet model fields attributes →
      (∀ decimal ∈ Value.fieldsDecimals attributes, wordMin < decimal.scale) →
        (∀ name ∈ Value.fieldsWrittenNames attributes, (Block.key name).length ≤ 1024) →
          Block.entriesAreLegible (Value.fieldsLayout attributes)
  | _, _, .nil, _, _ => trivial
  | _, _, @FieldsMeet.cons _ _ _ _ rest first others, scales, short => by
    obtain ⟨scalesFirst, scalesRest⟩ := List.forall_mem_append.mp scales
    have later (short : ∀ name ∈ Value.fieldsWrittenNames rest, (Block.key name).length ≤ 1024) :=
      entriesAreLegible_layout others scalesRest short
    rw [Value.fieldsLayout]
    rw [Value.fieldsWrittenNames] at short
    split
    · rename_i absent
      rw [if_pos absent] at short
      exact later short
    · rename_i given
      rw [if_neg given, List.forall_mem_cons, List.forall_mem_append] at short
      exact ⟨short.1, isLegible_layout first scalesFirst short.2.1, later short.2.2⟩

end

/-- The node of a single value is read as an item as it is read for a field of one value. -/
theorem readElement_layout_eq {range : Range} {item : Value} (meets : ValueMeets model range.single item)
    (scales : item.HasWritableScales) :
    readElement model range item.layout.node = readAttribute model (itemField range) item.layout.node := by
  cases meets with
  | scalar holds =>
    obtain ⟨style, text, node, present, _⟩ := Value.exists_scalar_layout holds scales
    rw [node]
    simp only [readElement, readAttribute, fieldScalarData, present]
    rfl
  | object found each =>
    simp only [Value.layout, Layout.node, readElement, readAttribute]
    rfl

mutual

/-- The node of a value is read for a field as the data of the value. -/
theorem readAttribute_layout (wellFormed : model.WellFormed) :
    ∀ {constraint : ValueConstraint} {value : Value}, ValueMeets model constraint value →
      value.HasWritableScales → value ≠ .null → ∀ field : Field,
      field.constraint.toValueConstraint = constraint →
        readAttribute model field value.layout.node = .ok (value.toData Value.blockSpelling)
  | _, _, .null, _, given, _, _ => absurd rfl given
  | _, _, .scalar holds, scales, _, ⟨name, range, multivalued, required, identifier, description?⟩, same => by
    cases same
    obtain ⟨style, text, node, present, spelled, _⟩ := Value.exists_scalar_layout holds scales
    rw [node, (Value.toData_of_holds _ holds).2, spelled]
    simp only [readAttribute, fieldScalarData, present, Bool.false_eq_true, if_false, scalarData, Node.text?,
      orMalformed]
    rfl
  | _, _, .object found each, scales, _,
      ⟨name, range, multivalued, required, identifier, description?⟩, same => by
    cases same
    have read := readEntries_layout wellFormed found each scales [] (fun _ member => member)
      (wellFormed.distinct found) (by simp [Table.keys])
    simp only [Value.layout, Layout.node, readAttribute, Bool.false_eq_true, if_false, mappingData, found,
      read, Value.toData]
    rfl
  | _, _, .list _ each, scales, _, ⟨name, range, multivalued, required, identifier, description?⟩, same => by
    cases same
    have read := readElements_layout wellFormed each scales
    simp only [Value.layout, Layout.node, readAttribute, if_true, read, Value.toData]
    rfl

/-- The nodes of single values are read as their data. -/
theorem readElements_layout (wellFormed : model.WellFormed) : ∀ {range : Range} {items : List Value},
    ItemsMeet model range items → (∀ decimal ∈ Value.itemsDecimals items, wordMin < decimal.scale) →
      readElements model range (Block.itemNodes (Value.itemsLayout items)) =
        .ok (Value.itemsToData Value.blockSpelling items)
  | _, _, .nil, _ => rfl
  | range, _, @ItemsMeet.cons _ _ item _ first others, scales => by
    obtain ⟨scalesFirst, scalesRest⟩ := List.forall_mem_append.mp scales
    have tail := readElements_layout wellFormed others scalesRest
    have head := readAttribute_layout wellFormed first scalesFirst first.single.1 (itemField range) rfl
    rw [← readElement_layout_eq first scalesFirst] at head
    rw [Value.itemsLayout, Block.itemNodes, readElements, head, tail]
    rfl

/-- The nodes of attributes are read as their data, behind what is already read. -/
theorem readEntries_layout (wellFormed : model.WellFormed) {className : String} {classModel : ClassModel}
    (found : model.class? className = some classModel) : ∀ {fields : List Field}
    {attributes : List (String × Value)}, FieldsMeet model fields attributes →
      (∀ decimal ∈ Value.fieldsDecimals attributes, wordMin < decimal.scale) → ∀ table : Table Data,
        fields ⊆ classModel.fields → (fields.map Field.name).Nodup →
          (∀ field ∈ fields, field.name ∉ table.keys) →
            readEntries model classModel table (Block.entryNodes (Value.fieldsLayout attributes)) =
              .ok (table ++ Value.fieldsToData Value.blockSpelling attributes)
  | _, _, .nil, _, table, _, _, _ => by
    rw [Value.fieldsToData, List.append_nil]
    rfl
  | _, _, @FieldsMeet.cons _ field fields value rest first others, scales, table, known, distinct, fresh => by
    obtain ⟨isField, known⟩ := List.cons_subset.mp known
    obtain ⟨absent, fresh⟩ := List.forall_mem_cons.mp fresh
    obtain ⟨apart, distinct⟩ := List.nodup_cons.mp distinct
    obtain ⟨scalesFirst, scalesRest⟩ := List.forall_mem_append.mp scales
    rw [Value.fieldsLayout, Value.fieldsToData]
    split
    · exact readEntries_layout wellFormed found others scalesRest table known distinct fresh
    · rename_i given
      have head :=
        readAttribute_layout wellFormed first scalesFirst (Value.ne_null_of_isNull given) field rfl
      have tail := readEntries_layout wellFormed found others scalesRest
        (table ++ [(field.name, value.toData Value.blockSpelling)]) known distinct (by
          intro other member
          simp only [Table.keys, List.map_append, List.mem_append, List.map_cons, List.map_nil,
            List.mem_singleton, not_or]
          refine ⟨fresh other member, ?_⟩
          intro same
          rw [← same] at apart
          exact apart (List.mem_map_of_mem member))
      have unread : table.has field.name = false := by
        rw [← Bool.not_eq_true, Table.has_iff_mem_keys]
        exact absent
      have declared := (ClassModel.field?_eq_some_iff (wellFormed.distinct found)).mpr ⟨isField, rfl⟩
      simp only [Block.entryNodes, readEntries, Node.text?, orMalformed, unread, declared, head, tail, bind,
        Except.bind, Bool.false_eq_true, if_false, List.append_assoc, List.singleton_append]

end

end ObjectModel

/-- A constructed instance of a compiled schema is written as block text, and the text is loaded as an
instance that is the same. No scale of a decimal is the least of 64 bits, nothing is nested deeper than the
reader goes, and the names of attributes are written shortly enough to be keys. -/
theorem Compilation.exists_loadBlock_same {settings : Settings} {document : Document}
    {compilation : Compilation} (compiled : ofDocument settings document = .ok compilation)
    {className : String} {classModel : ClassModel}
    (found : compilation.model.class? className = some classModel) {mode : CoercionMode}
    {entries : Table Data} {instanceValue : Instance}
    (constructed : compilation.model.constructClass mode classModel entries = .ok instanceValue)
    (scales : instanceValue.toValue.HasWritableScales) (shallow : instanceValue.toValue.depth ≤ Yaml.maxDepth)
    (short : ∀ name ∈ instanceValue.toValue.writtenNames, (Block.key name).length ≤ 1024) :
    ∃ text back, instanceValue.toBlockText = .ok text ∧
      compilation.model.loadBlock className text = .ok back ∧ back.same instanceValue = true := by
  have wellFormed := ObjectModel.wellFormed_of_ofDocument (parts_of_ofDocument compiled).1
  obtain ⟨named, each⟩ := ObjectModel.meets_of_constructClass _ mode wellFormed found constructed
  let layouts := Value.fieldsLayout instanceValue.fields
  let data := Value.fieldsToData Value.blockSpelling instanceValue.fields
  have written : instanceValue.toBlockText = .ok (Block.documentText layouts) := by
    rw [Instance.toBlockText, ObjectModel.fieldsToLayout_of_meet each scales]
    rfl
  have legible : Block.entriesAreLegible layouts := ObjectModel.entriesAreLegible_layout each scales short
  have source := Block.ofText_documentText legible
    (Nat.le_trans (Value.depth_layout_le instanceValue.toValue) shallow)
  have read : compilation.model.readBlock classModel (Block.documentText layouts) = .ok data := by
    have entries := ObjectModel.readEntries_layout wellFormed found each scales [] (fun _ member => member)
      (wellFormed.distinct found) (by simp [Table.keys])
    simp only [ObjectModel.readBlock, source, Node.entries?, ObjectModel.orMalformed, layouts, entries, bind,
      Except.bind, List.nil_append, if_true]
    rfl
  obtain ⟨back, rebuilt, same⟩ :=
    ObjectModel.exists_constructClass_toData wellFormed recoverable_blockSpelling found named each scales
  refine ⟨Block.documentText layouts, back, written, ?_, same⟩
  simp only [ObjectModel.loadBlock, found, read, mapError_ok, bind, Except.bind, data, rebuilt]

/-- A person with an age, a nickname and a friend is loaded again from block text. -/
theorem Compilation.exists_loadBlock_same_ada : ∃ compilation,
    ofDocument {} .people = .ok compilation ∧ compilation.model.class? "Person" = some .person ∧
      compilation.model.constructClass .lenient .person adaEntries = .ok .ada ∧
      Instance.ada.toValue.HasWritableScales ∧ Instance.ada.toValue.depth ≤ Yaml.maxDepth ∧
      (∀ name ∈ Instance.ada.toValue.writtenNames, (Block.key name).length ≤ 1024) ∧
      ∃ text back, Instance.ada.toBlockText = .ok text ∧
        compilation.model.loadBlock "Person" text = .ok back ∧ back.same .ada = true := by
  obtain ⟨compilation, compiled, found, constructed⟩ := exists_ada
  have scales := Instance.hasWritableScales_ada
  have shallow : Instance.ada.toValue.depth ≤ Yaml.maxDepth := by decide
  have short : ∀ name ∈ Instance.ada.toValue.writtenNames, (Block.key name).length ≤ 1024 := by decide +kernel
  exact ⟨compilation, compiled, found, constructed, scales, shallow, short,
    exists_loadBlock_same compiled found constructed scales shallow short⟩

end ClassSchema
