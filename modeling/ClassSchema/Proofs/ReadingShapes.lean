import ClassSchema.Proofs.BlockReadings
import ClassSchema.Proofs.CanonicalText
import ClassSchema.Proofs.Constructions

/-! # Shapes in two readings

An instance that is loaded from block text is compared with what the reader without schema makes of the same
text. The two have the same shape exactly if the text reads alike: nothing is taken for a value that the other
reader takes for null, no empty scalar is taken for a list or an object, and no mapping starts with the key that
is kept for numbers.
-/

namespace ClassSchema

open Yaml (Node Style UntypedRule)

/-- Whether data is a scalar and not null. -/
def Data.isScalar : Data → Bool
  | .bool _ | .number _ | .text _ => true
  | _ => false

namespace Value

mutual

/-- Whether a value has the shape of what is found in its place: null where there is nothing or null, a list
where there is a list of as many items, an object where there is a map, and a scalar where there is a scalar. -/
def HasShape : Value → Option Data → Prop
  | .null, found? => found? = none ∨ found? = some .null
  | .list items, found? => ∃ others, found? = some (.list others) ∧ itemsHaveShape items others
  | .object _ fields, found? => ∃ entries, found? = some (.map entries) ∧ fieldsHaveShape fields entries
  | _, found? => ∃ data, found? = some data ∧ data.isScalar = true

/-- Whether items have the shapes of others, one by one. -/
def itemsHaveShape : List Value → List Data → Prop
  | [], [] => True
  | item :: rest, other :: others => item.HasShape (some other) ∧ itemsHaveShape rest others
  | _, _ => False

/-- Whether attributes have the shapes of what is found under their names. -/
def fieldsHaveShape : List (String × Value) → Table Data → Prop
  | [], _ => True
  | (name, value) :: rest, entries => value.HasShape (entries.get? name) ∧ fieldsHaveShape rest entries

end

end Value

namespace ObjectModel

/-- Whether a scalar is a value of a range for both readers: it is no instance, and not null. -/
def scalarReadsAlike (range : Range) (node : Node) : Bool :=
  range.className?.isNone && !(node.toData? .document).any Data.isNull

/-- Whether a mapping is an object of a range for both readers: it is no number, and its entries read alike. -/
def mappingReadsAlike (model : ObjectModel) (range : Range) (entries : List (Node × Node))
    (each : ClassModel → Bool) : Bool :=
  !((Yaml.keyNames entries).head? == some Json.numberKey) &&
    (range.className?.bind model.class?).all each

mutual

/-- Whether a node is read alike as an element of a range. -/
def elementReadsAlike (model : ObjectModel) (range : Range) : Node → Bool
  | .scalar tag style text => scalarReadsAlike range (.scalar tag style text)
  | .mapping _ entries =>
    model.mappingReadsAlike range entries fun classModel => entriesReadAlike model classModel entries
  | _ => true

/-- Whether nodes are read alike as elements of a range. -/
def elementsReadAlike (model : ObjectModel) (range : Range) : List Node → Bool
  | [] => true
  | node :: rest => elementReadsAlike model range node && elementsReadAlike model range rest

/-- Whether a node is read alike for an attribute. -/
def attributeReadsAlike (model : ObjectModel) (field : Field) : Node → Bool
  | .scalar tag style text =>
    (Node.scalar tag style text).isAbsent? == some true ||
      (!field.multivalued && scalarReadsAlike field.range (.scalar tag style text))
  | .sequence _ items => elementsReadAlike model field.range items
  | .mapping _ entries =>
    model.mappingReadsAlike field.range entries fun classModel => entriesReadAlike model classModel entries
  | .broken => true

/-- Whether the entries for the attributes of a class are read alike. -/
def entriesReadAlike (model : ObjectModel) (classModel : ClassModel) : List (Node × Node) → Bool
  | [] => true
  | (key, node) :: rest =>
    (key.text?.bind classModel.field?).all (fun field => attributeReadsAlike model field node) &&
      entriesReadAlike model classModel rest

end

/-- Whether a block text is read alike for a class. Where nothing is written there is nothing to tell apart. -/
def textReadsAlike (model : ObjectModel) (classModel : ClassModel) (text : String) : Bool :=
  match (Yaml.Source.ofText text).root with
  | .mapping _ entries =>
    !((Yaml.keyNames entries).head? == some Json.numberKey) && entriesReadAlike model classModel entries
  | _ => true

end ObjectModel

/-- A scalar is null or another scalar for the reader without schema. -/
theorem Yaml.isScalar_of_scalar {tag : Option String} {style : Style} {text : String} {data : Data}
    (read : (Node.scalar tag style text).toData? .document = some data) :
    data.isScalar = !data.isNull := by
  obtain ⟨value, _, isData⟩ := Option.bind_eq_some_iff.mp (toData?_scalar read)
  cases value with
  | float value =>
    cases text? : value.compactText? <;>
      simp only [UntypedRule.scalar?, UntypedRule.document, text?, Option.map_some, Option.map_none,
        Option.getD_some, Option.getD_none, Option.some.injEq] at isData <;>
      subst isData <;> simp [Data.isScalar, Data.isNull]
  | integer value =>
    simp only [UntypedRule.scalar?, UntypedRule.document, Bool.true_or, if_true, Option.some.injEq] at isData
    subst isData
    simp [Data.isScalar, Data.isNull]
  | _ =>
    cases isData
    simp [Data.isScalar, Data.isNull]

namespace Value

/-- A scalar has the shape of scalars. -/
theorem hasShape_iff_of_holds {kind : ScalarKind} {value : Value} (holds : kind.Holds value)
    (found? : Option Data) : value.HasShape found? ↔ ∃ data, found? = some data ∧ data.isScalar = true := by
  cases value with
  | null => cases kind <;> cases holds
  | list items => cases kind <;> cases holds
  | object className fields => cases kind <;> cases holds
  | _ => rfl

end Value

namespace ObjectModel

variable {model : ObjectModel}

/-- A node is read for a constraint, as an attribute or as an element, and `alike` says whether it reads
alike. -/
inductive Reads (model : ObjectModel) (constraint : ValueConstraint) (node : Node) (raw : Data) : Bool → Prop
  | ofAttribute (field : Field) (same : field.constraint.toValueConstraint = constraint)
      (read : readAttribute model field node = .ok raw) :
      Reads model constraint node raw (attributeReadsAlike model field node)
  | ofElement (range : Range) (same : range.single = constraint)
      (read : readElement model range node = .ok raw) :
      Reads model constraint node raw (elementReadsAlike model range node)

/-- An element is a scalar or a mapping. -/
theorem of_readElement {range : Range} {node : Node} {raw : Data}
    (read : readElement model range node = .ok raw) :
    (∃ tag style text, node = .scalar tag style text ∧
      model.scalarData range (.scalar tag style text) = .ok raw) ∨
      ∃ tag entries, node = .mapping tag entries ∧
        model.mappingData range (fun classModel => readEntries model classModel [] entries) = .ok raw := by
  cases node with
  | scalar tag style text => exact .inl ⟨tag, style, text, rfl, read⟩
  | mapping tag entries => exact .inr ⟨tag, entries, rfl, read⟩
  | sequence tag items =>
    obtain ⟨_, _, _, _, _, refused, _⟩ := of_mappingData read
    cases refused
  | broken => cases read

/-- No element is read as null. -/
theorem readElement_ne_null (range : Range) (node : Node) : readElement model range node ≠ .ok .null := by
  intro read
  rcases of_readElement read with ⟨_, _, _, _, scalar⟩ | ⟨_, _, _, mapping⟩
  · rcases of_scalarData scalar with ⟨_, _, other⟩ | ⟨_, _, _, _, _, _, other⟩ <;> cases other
  · obtain ⟨_, _, _, _, _, _, other⟩ := of_mappingData mapping
    cases other

namespace Reads

variable {constraint : ValueConstraint} {range : Range} {kind : ScalarKind} {className : String}
  {required multivalued : Bool} {node : Node} {raw : Data} {raws : List Data} {table : Table Data} {alike : Bool}

/-- For a single value, what is not absent is read as an element. -/
theorem of_single (reads : Reads model ⟨range, false, required⟩ node raw alike) :
    (∃ tag style text, node = .scalar tag style text ∧ node.isAbsent? = some true ∧ raw = .null ∧
        alike = true) ∨
      readElement model range node = .ok raw ∧ alike = elementReadsAlike model range node := by
  cases reads with
  | ofElement range same read =>
    cases same
    exact .inr ⟨read, rfl⟩
  | ofAttribute field same read =>
    obtain ⟨name, range, multivalued, required, identifier, description?⟩ := field
    cases same
    cases node with
    | scalar tag style text =>
      rcases of_readAttribute_scalar read with ⟨absent, isNull⟩ | ⟨present, ⟨several, _⟩ | ⟨_, scalar⟩⟩
      · exact .inl ⟨tag, style, text, rfl, absent, isNull, by simp [attributeReadsAlike, absent]⟩
      · cases several
      · exact .inr ⟨scalar, by simp [attributeReadsAlike, elementReadsAlike, present]⟩
    | mapping tag entries =>
      exact .inr ⟨(of_readAttribute_mapping read).2, by simp only [attributeReadsAlike, elementReadsAlike]⟩
    | sequence tag items => cases (of_readAttribute_sequence read).1
    | broken => cases read

/-- For several values, what is not absent is a sequence, or an empty scalar, which does not read alike. -/
theorem of_several (reads : Reads model ⟨range, true, required⟩ node raw alike) :
    (∃ tag style text, node = .scalar tag style text ∧ node.isAbsent? = some true ∧ raw = .null ∧
        alike = true) ∨
      (∃ tag, node = .scalar tag .plain "" ∧ raw = .list [] ∧ alike = false) ∨
      ∃ tag nodes raws, node = .sequence tag nodes ∧ readElements model range nodes = .ok raws ∧
        raw = .list raws ∧ alike = elementsReadAlike model range nodes := by
  cases reads with
  | ofElement range same read => cases same
  | ofAttribute field same read =>
    obtain ⟨name, range, multivalued, required, identifier, description?⟩ := field
    cases same
    cases node with
    | scalar tag style text =>
      rcases of_readAttribute_scalar read with ⟨absent, isNull⟩ | ⟨present, ⟨_, rfl, rfl, isEmpty⟩ | ⟨single, _⟩⟩
      · exact .inl ⟨tag, style, text, rfl, absent, isNull, by simp [attributeReadsAlike, absent]⟩
      · exact .inr (.inl ⟨tag, rfl, isEmpty, by simp [attributeReadsAlike, present]⟩)
      · cases single
    | sequence tag nodes =>
      obtain ⟨_, raws, each, isList⟩ := of_readAttribute_sequence read
      exact .inr (.inr ⟨tag, nodes, raws, rfl, each, isList, by simp only [attributeReadsAlike]⟩)
    | mapping tag entries => cases (of_readAttribute_mapping read).1
    | broken => cases read

/-- Only what is absent is read as null. -/
theorem of_null (reads : Reads model constraint node .null alike) :
    ∃ tag style text, node = .scalar tag style text ∧ node.isAbsent? = some true ∧ alike = true := by
  obtain ⟨range, multivalued, required⟩ := constraint
  cases multivalued with
  | false =>
    rcases reads.of_single with ⟨tag, style, text, isScalar, absent, _, isAlike⟩ | ⟨read, _⟩
    · exact ⟨tag, style, text, isScalar, absent, isAlike⟩
    · exact absurd read (readElement_ne_null range node)
  | true =>
    rcases reads.of_several with ⟨tag, style, text, isScalar, absent, _, isAlike⟩ | ⟨_, _, other, _⟩ |
      ⟨_, _, _, _, _, other, _⟩
    · exact ⟨tag, style, text, isScalar, absent, isAlike⟩
    · cases other
    · cases other

/-- What is read for a scalar kind is the text of a scalar, which reads alike if it is not null. -/
theorem of_scalar (reads : Reads model ⟨.scalar kind, false, required⟩ node raw alike) (given : raw ≠ .null) :
    ∃ tag style text, node = .scalar tag style text ∧ raw = .text text ∧
      alike = !(node.toData? .document).any Data.isNull := by
  rcases reads.of_single with ⟨_, _, _, _, _, isNull, _⟩ | ⟨read, isAlike⟩
  · exact absurd isNull given
  · rcases of_readElement read with ⟨tag, style, text, rfl, scalar⟩ | ⟨_, _, _, mapping⟩
    · rcases of_scalarData scalar with ⟨_, _, isText⟩ | ⟨_, _, other, _⟩
      · refine ⟨tag, style, text, rfl, isText, ?_⟩
        simp [isAlike, elementReadsAlike, scalarReadsAlike, Range.className?]
      · cases other
    · obtain ⟨_, _, _, other, _⟩ := of_mappingData mapping
      cases other

/-- What is read as a list is a sequence, or an empty scalar, which does not read alike. -/
theorem of_list (reads : Reads model ⟨range, true, required⟩ node (.list raws) alike) :
    (∃ tag, node = .scalar tag .plain "" ∧ raws = [] ∧ alike = false) ∨
      ∃ tag nodes, node = .sequence tag nodes ∧ readElements model range nodes = .ok raws ∧
        alike = elementsReadAlike model range nodes := by
  rcases reads.of_several with ⟨_, _, _, _, _, other, _⟩ | ⟨tag, isScalar, isList, isAlike⟩ |
    ⟨tag, nodes, raws, isSequence, each, isList, isAlike⟩
  · cases other
  · cases isList
    exact .inl ⟨tag, isScalar, rfl, isAlike⟩
  · cases isList
    exact .inr ⟨tag, nodes, isSequence, each, isAlike⟩

/-- What is read as a map is a mapping, or an empty scalar, which does not read alike. -/
theorem of_map (reads : Reads model ⟨.instanceOf className, false, required⟩ node (.map table) alike) :
    (∃ tag, node = .scalar tag .plain "" ∧ table = [] ∧ alike = false) ∨
      ∃ tag entries classModel, node = .mapping tag entries ∧ model.class? className = some classModel ∧
        readEntries model classModel [] entries = .ok table ∧
        alike = (!((Yaml.keyNames entries).head? == some Json.numberKey) &&
          entriesReadAlike model classModel entries) := by
  rcases reads.of_single with ⟨_, _, _, _, _, other, _⟩ | ⟨read, isAlike⟩
  · cases other
  · rcases of_readElement read with ⟨tag, style, text, rfl, scalar⟩ | ⟨tag, entries, rfl, mapping⟩
    · rcases of_scalarData scalar with ⟨_, _, other⟩ | ⟨_, _, _, _, rfl, rfl, isMap⟩
      · cases other
      · cases isMap
        exact .inl ⟨tag, rfl, rfl, by simp [isAlike, elementReadsAlike, scalarReadsAlike, Range.className?]⟩
    · obtain ⟨_, classModel, _, same, found, entriesRead, isMap⟩ := of_mappingData mapping
      cases same
      cases isMap
      refine .inr ⟨tag, entries, classModel, rfl, found, entriesRead, ?_⟩
      simp [isAlike, elementReadsAlike, mappingReadsAlike, Range.className?, found]

end Reads

/-- A mapping reads alike if the nodes for the attributes do. -/
theorem entriesReadAlike_iff {classModel : ClassModel} (distinct : (classModel.fields.map Field.name).Nodup)
    (entries : List (Node × Node)) :
    entriesReadAlike model classModel entries = true ↔
      ∀ entry ∈ entries, ∀ field ∈ classModel.fields, entry.1.text? = some field.name →
        attributeReadsAlike model field entry.2 = true := by
  induction entries with
  | nil => simp [entriesReadAlike]
  | cons entry rest ih =>
    obtain ⟨key, node⟩ := entry
    rw [entriesReadAlike, Bool.and_eq_true, ih, List.forall_mem_cons, Option.all_eq_true]
    refine and_congr_left' ?_
    simp only [Option.bind_eq_some_iff]
    constructor
    · intro alike field isField isName
      exact alike field ⟨_, isName, (ClassModel.field?_eq_some_iff distinct).mpr ⟨isField, rfl⟩⟩
    · rintro alike field ⟨name, isName, found⟩
      obtain ⟨isField, rfl⟩ := (ClassModel.field?_eq_some_iff distinct).mp found
      exact alike field isField isName

mutual

/-- A value has the shape that the reader without schema finds exactly if the node reads alike. -/
theorem hasShape_iff_readsAlike (wellFormed : model.WellFormed) : ∀ {constraint : ValueConstraint} {raw : Data}
    {value : Value}, Makes model .lenient constraint raw value → ∀ {node : Node} {alike : Bool} {data : Data},
      Reads model constraint node raw alike → node.toData? .document = some data →
        (value.HasShape (some data) ↔ alike = true)
  | _, _, _, .null, node, alike, data, reads, read => by
    obtain ⟨tag, style, text, rfl, absent, isAlike⟩ := reads.of_null
    simp [Value.HasShape, Yaml.toData?_absent absent read, isAlike]
  | _, raw, value, .scalar coerced, node, alike, data, reads, read => by
    obtain ⟨tag, style, text, rfl, isText, isAlike⟩ := reads.of_scalar (ne_null_of_coerceScalar coerced)
    rw [Value.hasShape_iff_of_holds (ScalarKind.holds_of_coerceScalar coerced), isAlike, read]
    simp [Yaml.isScalar_of_scalar read]
  | _, _, _, @Makes.object _ _ _ _ classModel table attributes found known each, node, alike, data, reads,
      read => by
    rcases reads.of_map with ⟨tag, rfl, _, isAlike⟩ | ⟨tag, entries, _, rfl, same, typed, isAlike⟩
    · rcases Yaml.toData?_empty read with rfl | rfl <;> simp [Value.HasShape, isAlike]
    · obtain rfl := Option.some.inj (found.symm.trans same)
      obtain ⟨pairs, untyped, isData⟩ := Yaml.toData?_mapping read
      have shapes := fieldsHaveShape_iff_entriesReadAlike wellFormed found each (List.Subset.refl _) typed untyped
      obtain ⟨distinct, names, _⟩ := tables_of_entries typed untyped
      have isData := Yaml.objectData?_of_nodup (names ▸ distinct) isData
      rw [(Yaml.of_entriesToData? untyped).1] at isData
      rw [isAlike, Bool.and_eq_true, entriesReadAlike_iff (wellFormed.distinct found), ← shapes]
      split at isData
      · rename_i isNumber
        obtain ⟨literal, rfl⟩ := isData
        simp [Value.HasShape, isNumber]
      · rename_i noNumber
        simp [Value.HasShape, isData, noNumber]
  | _, _, _, .list given each, node, alike, data, reads, read => by
    rcases reads.of_list with ⟨tag, rfl, _, isAlike⟩ | ⟨tag, nodes, rfl, typed, isAlike⟩
    · rcases Yaml.toData?_empty read with rfl | rfl <;> simp [Value.HasShape, isAlike]
    · obtain ⟨others, untyped, rfl⟩ := Yaml.toData?_sequence read
      have shapes := itemsHaveShape_iff_readAlike wellFormed each (forall₂_of_readElements typed)
        (Yaml.forall₂_of_itemsToData? untyped)
      simp [Value.HasShape, isAlike, shapes]

/-- Items have the shapes that the reader without schema finds exactly if each of the nodes reads alike. -/
theorem itemsHaveShape_iff_readAlike (wellFormed : model.WellFormed) : ∀ {range : Range} {raws : List Data}
    {values : List Value}, MakesItems model .lenient range raws values →
      ∀ {nodes : List Node} {others : List Data},
        List.Forall₂ (fun node raw => readElement model range node = .ok raw) nodes raws →
          List.Forall₂ (fun node other => node.toData? .document = some other) nodes others →
            (Value.itemsHaveShape values others ↔ elementsReadAlike model range nodes = true)
  | _, _, _, .nil, nodes, others, typed, untyped => by
    cases typed
    cases untyped
    simp [Value.itemsHaveShape, elementsReadAlike]
  | range, _, _, .cons first rest, nodes, others, typed, untyped => by
    cases typed with
    | cons isFirst areRest =>
      cases untyped with
      | cons isOther areOthers =>
        have shape := hasShape_iff_readsAlike wellFormed first (.ofElement range rfl isFirst) isOther
        have shapes := itemsHaveShape_iff_readAlike wellFormed rest areRest areOthers
        rw [Value.itemsHaveShape, elementsReadAlike, Bool.and_eq_true, shape, shapes]

/-- Attributes have the shapes that the reader without schema finds exactly if the nodes for them read alike. -/
theorem fieldsHaveShape_iff_entriesReadAlike (wellFormed : model.WellFormed) {className : String}
    {classModel : ClassModel} (found : model.class? className = some classModel) : ∀ {table : Table Data}
    {fields : List Field} {attributes : List (String × Value)},
      MakesFields model .lenient table fields attributes → fields ⊆ classModel.fields →
        ∀ {entries : List (Node × Node)} {pairs : List (String × Data)},
          readEntries model classModel [] entries = .ok table →
            Yaml.entriesToData? .document entries = some pairs →
              (Value.fieldsHaveShape attributes pairs ↔
                ∀ entry ∈ entries, ∀ field ∈ fields, entry.1.text? = some field.name →
                  attributeReadsAlike model field entry.2 = true)
  | _, _, _, .nil, _, _, _, _, _ => by simp [Value.fieldsHaveShape]
  | table, _, _, @MakesFields.absent _ _ _ field fields attributes missing optional others, known, entries,
      pairs, typed, untyped => by
    obtain ⟨_, known⟩ := List.cons_subset.mp known
    have shapes := fieldsHaveShape_iff_entriesReadAlike wellFormed found others known typed untyped
    obtain ⟨_, names, each⟩ := tables_of_entries typed untyped
    have nothing : Table.get? pairs field.name = none := by
      rw [Table.get?_eq_none_iff, ← names, ← Table.get?_eq_none_iff]
      exact missing
    have unwritten : ∀ entry ∈ entries, entry.1.text? ≠ some field.name := by
      intro entry member isName
      obtain ⟨name, raw, _, isOther, present, _⟩ := each entry member
      cases isName.symm.trans isOther
      rw [missing] at present
      cases present
    simp only [Value.fieldsHaveShape, Value.HasShape, nothing, true_or, true_and, shapes, List.forall_mem_cons]
    refine forall₂_congr fun entry member => ?_
    exact ⟨fun rest => ⟨fun isName => absurd isName (unwritten entry member), rest⟩, And.right⟩
  | table, _, _, @MakesFields.given _ _ _ field fields attributes raw value read first others, known, entries,
      pairs, typed, untyped => by
    obtain ⟨isField, known⟩ := List.cons_subset.mp known
    have shapes := fieldsHaveShape_iff_entriesReadAlike wellFormed found others known typed untyped
    obtain ⟨_, names, each⟩ := tables_of_entries typed untyped
    have declared := (ClassModel.field?_eq_some_iff (wellFormed.distinct found)).mpr ⟨isField, rfl⟩
    have shape : ∀ entry ∈ entries, entry.1.text? = some field.name →
        (value.HasShape (Table.get? pairs field.name) ↔ attributeReadsAlike model field entry.2 = true) := by
      intro entry member isName
      obtain ⟨name, other, data, isOther, present, isPair, isData, typedEntry⟩ := each entry member
      cases isName.symm.trans isOther
      cases read.symm.trans present
      rw [isPair]
      exact hasShape_iff_readsAlike wellFormed first (.ofAttribute field rfl (typedEntry field declared)) isData
    obtain ⟨written, isWritten, isName⟩ := exists_entry_of_get? typed (List.mem_map_of_mem (Table.mem_of_get? read))
    rw [Value.fieldsHaveShape, shapes]
    simp only [List.forall_mem_cons]
    constructor
    · rintro ⟨first, rest⟩ entry member
      exact ⟨fun isName => (shape entry member isName).mp first, rest entry member⟩
    · intro alike
      exact ⟨(shape written isWritten isName).mpr ((alike written isWritten).1 isName),
        fun entry member => (alike entry member).2⟩

end

/-- What has the shape of nothing is null. -/
theorem eq_null_of_hasShape_none {value : Value} (shape : value.HasShape none) : value = .null := by
  cases value <;> simp [Value.HasShape] at shape ⊢

/-- Where all attributes have the shape of nothing, each entry for one of them is null. -/
theorem MakesFields.eq_null_of_nil {mode : CoercionMode} : ∀ {table : Table Data} {fields : List Field}
    {attributes : List (String × Value)}, MakesFields model mode table fields attributes →
      Value.fieldsHaveShape attributes [] →
        ∀ field ∈ fields, ∀ raw, table.get? field.name = some raw → raw = .null
  | _, _, _, .nil, _, _, member, _, _ => absurd member List.not_mem_nil
  | _, _, _, .absent missing optional others, shapes, field, member, raw, read => by
    rcases List.mem_cons.mp member with rfl | later
    · cases missing.symm.trans read
    · exact eq_null_of_nil others shapes.2 field later raw read
  | _, _, _, .given present first others, shapes, field, member, raw, read => by
    rcases List.mem_cons.mp member with rfl | later
    · cases present.symm.trans read
      exact first.eq_null_iff.mp (eq_null_of_hasShape_none shapes.1)
    · exact eq_null_of_nil others shapes.2 field later raw read

/-- An instance that is loaded from block text is made of the entries at the root. -/
theorem of_loadBlock (wellFormed : model.WellFormed) {className text : String} {classModel : ClassModel}
    (found : model.class? className = some classModel) {instanceValue : Instance}
    (loaded : model.loadBlock className text = .ok instanceValue) :
    ∃ entries table, (Yaml.Source.ofText text).root.entries? = some entries ∧
      readEntries model classModel [] entries = .ok table ∧ instanceValue.className = className ∧
      (∀ entry ∈ table, (classModel.field? entry.1).isSome = true) ∧
      MakesFields model .lenient table classModel.fields instanceValue.fields := by
  simp only [loadBlock, found, readBlock, bind_eq_ok_iff, mapError_eq_ok_iff, orMalformed_eq_ok_iff] at loaded
  obtain ⟨table, ⟨entries, isRoot, result, read, clean⟩, constructed⟩ := loaded
  split at clean
  · cases clean
    obtain ⟨sameName, known, each⟩ :=
      makes_of_constructClass wellFormed found constructed
    exact ⟨entries, table, isRoot, read, sameName, known, each⟩
  · cases clean

/-- A number at the root is no instance: the entry for the attribute of that name is not null. -/
theorem not_fieldsHaveShape_of_number (wellFormed : model.WellFormed) {className : String}
    {classModel : ClassModel} (found : model.class? className = some classModel)
    {entries : List (Node × Node)} {table : Table Data} {pairs : List (String × Data)} {literal : String}
    {attributes : List (String × Value)} (typed : readEntries model classModel [] entries = .ok table)
    (untyped : Yaml.entriesToData? .document entries = some pairs)
    (isNumber : Json.objectData? pairs = some (.number literal))
    (known : ∀ entry ∈ table, (classModel.field? entry.1).isSome = true)
    (each : MakesFields model .lenient table classModel.fields attributes) :
    ¬ Value.fieldsHaveShape attributes [] := by
  intro shapes
  obtain ⟨text, rfl⟩ := Yaml.of_objectData?_number isNumber
  obtain ⟨_, names, rows⟩ := tables_of_entries typed untyped
  have isKey : Json.numberKey ∈ table.keys := names ▸ List.mem_singleton_self _
  obtain ⟨entry, member, isName⟩ := exists_entry_of_get? typed isKey
  obtain ⟨name, raw, data, same, present, isPair, isData, read⟩ := rows entry member
  cases isName.symm.trans same
  cases isPair
  obtain ⟨field, declared⟩ := Option.isSome_iff_exists.mp (known _ (Table.mem_of_get? present))
  obtain ⟨isField, isNamed⟩ := (ClassModel.field?_eq_some_iff (wellFormed.distinct found)).mp declared
  -- the text under the key would have to be absent
  have isNull := each.eq_null_of_nil shapes field isField raw (isNamed ▸ present)
  subst isNull
  obtain ⟨tag, style, text, isScalar, absent, _⟩ := Reads.of_null (.ofAttribute field rfl (read field declared))
  rw [isScalar] at absent isData
  cases Yaml.toData?_absent absent isData

/-- The attributes of a loaded instance have the shapes that the reader without schema finds exactly if the text
reads alike. -/
theorem fieldsHaveShape_iff_textReadsAlike (wellFormed : model.WellFormed) {className text : String}
    {classModel : ClassModel} (found : model.class? className = some classModel) {instanceValue : Instance}
    {data : Data} (loaded : model.loadBlock className text = .ok instanceValue)
    (read : Yaml.read? text = some data) :
    Value.fieldsHaveShape instanceValue.fields data.members ↔ model.textReadsAlike classModel text = true := by
  obtain ⟨entries, table, isRoot, typed, _, known, each⟩ := of_loadBlock wellFormed found loaded
  have isData := Yaml.toData?_root read
  unfold textReadsAlike
  generalize (Yaml.Source.ofText text).root = root at isRoot isData ⊢
  cases root with
  | mapping tag entries =>
    cases isRoot
    obtain ⟨pairs, untyped, isObject⟩ := Yaml.toData?_mapping isData
    have shapes := fieldsHaveShape_iff_entriesReadAlike wellFormed found each (List.Subset.refl _) typed untyped
    obtain ⟨distinct, names, _⟩ := tables_of_entries typed untyped
    have kind := Yaml.objectData?_of_nodup (names ▸ distinct) isObject
    rw [(Yaml.of_entriesToData? untyped).1] at kind
    simp only [Bool.and_eq_true, entriesReadAlike_iff (wellFormed.distinct found), ← shapes]
    split at kind
    · rename_i isNumber
      obtain ⟨literal, rfl⟩ := kind
      have none := not_fieldsHaveShape_of_number wellFormed found typed untyped isObject known each
      simp [Data.members, isNumber, none]
    · rename_i noNumber
      simp [kind, Data.members, noNumber]
  | scalar tag style text =>
    obtain ⟨rfl, rfl, rfl⟩ := eq_empty_of_entries? isRoot
    have shapes := fieldsHaveShape_iff_entriesReadAlike wellFormed found each (List.Subset.refl _) typed rfl
    rcases Yaml.toData?_empty isData with rfl | rfl <;> simp [Data.members, shapes]
  | sequence tag items => cases isRoot
  | broken => cases isRoot

end ObjectModel

/-- Of a compiled schema: where block text is loaded as an instance of a class, and also read without schema,
the values of the instance have the shapes of what is read, however deep, exactly if the text reads alike. -/
theorem Compilation.fieldsHaveShape_iff_readsAlike {settings : Settings} {document : Document}
    {compilation : Compilation} (compiled : ofDocument settings document = .ok compilation)
    {className text : String} {classModel : ClassModel}
    (found : compilation.model.class? className = some classModel) {instanceValue : Instance} {data : Data}
    (loaded : compilation.model.loadBlock className text = .ok instanceValue)
    (read : Yaml.read? text = some data) :
    Value.fieldsHaveShape instanceValue.fields data.members ↔
      compilation.model.textReadsAlike classModel text = true :=
  ObjectModel.fieldsHaveShape_iff_textReadsAlike
    (ObjectModel.wellFormed_of_ofDocument (parts_of_ofDocument compiled).1) found loaded read

/-- A person with a nickname and a friend is read alike. -/
theorem Compilation.fieldsHaveShape_iff_readsAlike_ada : ∃ compilation instanceValue data, ∃ text : String,
    text = "{name: Ada, age: ~, nicknames: [Countess], friend: {name: Charles}}" ∧
      ofDocument {} .people = .ok compilation ∧ compilation.model.class? "Person" = some .person ∧
      compilation.model.loadBlock "Person" text = .ok instanceValue ∧ Yaml.read? text = some data ∧
      compilation.model.textReadsAlike .person text = true ∧
      (Value.fieldsHaveShape instanceValue.fields data.members ↔
        compilation.model.textReadsAlike .person text = true) := by
  obtain ⟨compilation, compiled, found⟩ := exists_people
  let text := "{name: Ada, age: ~, nicknames: [Countess], friend: {name: Charles}}"
  have success : ((ofDocument {} .people).toOption.map fun compilation =>
      (compilation.model.loadBlock "Person" text).isOk && compilation.model.textReadsAlike .person text) =
        some true := by decide +kernel
  simp only [compiled, Except.toOption, Option.map_some, Option.some.injEq, Bool.and_eq_true] at success
  have isSome : (Yaml.read? text).isSome = true := by decide +kernel
  obtain ⟨instanceValue, loaded⟩ := exists_eq_ok_of_isOk success.1
  obtain ⟨data, read⟩ := Option.isSome_iff_exists.mp isSome
  exact ⟨compilation, instanceValue, data, text, rfl, compiled, found, loaded, read, success.2,
    fieldsHaveShape_iff_readsAlike compiled found loaded read⟩

/-- An item that is null becomes a text: a person is loaded with a nickname that is encoded as "null". -/
theorem Compilation.exists_text_of_null_item : ∃ compilation instanceValue data encoded, ∃ text : String,
    text = "{name: Ada, nicknames: [null]}" ∧ ofDocument {} .people = .ok compilation ∧
      compilation.model.loadBlock "Person" text = .ok instanceValue ∧ Yaml.read? text = some data ∧
      instanceValue.toJson = .ok encoded ∧
      Json.compact encoded = "\x7b\"name\":\"Ada\",\"nicknames\":[\"null\"]\x7d" ∧
      Json.compact data = "\x7b\"name\":\"Ada\",\"nicknames\":[null]\x7d" ∧
      ¬ Value.fieldsHaveShape instanceValue.fields data.members := by
  obtain ⟨compilation, compiled, found⟩ := exists_people
  let text := "{name: Ada, nicknames: [null]}"
  have success : ((ofDocument {} .people).toOption.map fun compilation =>
      ((compilation.model.loadBlock "Person" text).toOption.bind fun instanceValue =>
        instanceValue.toJson.toOption.map Json.compact, (Yaml.read? text).map Json.compact,
        compilation.model.textReadsAlike .person text)) =
      some (some "\x7b\"name\":\"Ada\",\"nicknames\":[\"null\"]\x7d",
        some "\x7b\"name\":\"Ada\",\"nicknames\":[null]\x7d", false) := by decide +kernel
  simp only [compiled, Except.toOption, Option.map_some, Option.some.injEq, Prod.mk.injEq,
    Option.map_eq_some_iff] at success
  obtain ⟨encodes, ⟨data, read, written⟩, notAlike⟩ := success
  cases loaded : compilation.model.loadBlock "Person" text with
  | error fault => simp [loaded] at encodes
  | ok instanceValue =>
    cases encoded : instanceValue.toJson with
    | error fault => simp [loaded, encoded] at encodes
    | ok result =>
      simp only [loaded, encoded, Option.bind_some, Option.map_some, Option.some.injEq] at encodes
      refine ⟨compilation, instanceValue, data, result, text, rfl, compiled, loaded, read, encoded, encodes,
        written, ?_⟩
      have wellFormed := ObjectModel.wellFormed_of_ofDocument (parts_of_ofDocument compiled).1
      rw [ObjectModel.fieldsHaveShape_iff_textReadsAlike wellFormed found loaded read, notAlike]
      exact Bool.false_ne_true

end ClassSchema
