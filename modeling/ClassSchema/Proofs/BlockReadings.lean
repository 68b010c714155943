import ClassSchema.Instance.Loading
import ClassSchema.Proofs.DocumentNames
import ClassSchema.Proofs.FieldTables
import ClassSchema.Proofs.Tables

/-! # Two readings of a node

Block text has two readers. One follows the field tables and takes every scalar as its text; the other one
knows no schema and takes a scalar for what YAML makes of it. What each of them does with a node is said here
once: scalar by scalar, item by item, and of a mapping entry by entry under the same name.
-/

namespace ClassSchema

open Yaml (Node Style UntypedRule)

namespace Yaml

/-- The names of a mapping's keys. -/
def keyNames (entries : List (Node × Node)) : List String :=
  entries.filterMap fun entry => entry.1.text?

theorem keyNames_cons {entry : Node × Node} {name : String} (isName : entry.1.text? = some name)
    (rest : List (Node × Node)) : keyNames (entry :: rest) = name :: keyNames rest := by
  unfold keyNames
  simp only [List.filterMap_cons, isName]

variable {rule : UntypedRule} {data : Data}

theorem toData?_root {text : String} (read : read? text = some data) :
    (Source.ofText text).root.toData? .document = some data := by
  simp only [read?] at read
  split at read
  · rename_i value isValue
    split at read
    · rw [isValue, read]
    · cases read
  · cases read

theorem toData?_scalar {tag : Option String} {style : Style} {text : String}
    (read : (Node.scalar tag style text).toData? .document = some data) :
    (scalarValue? tag style text).bind UntypedRule.document.scalar? = some data := by
  simp only [Node.toData?] at read
  split at read
  · cases read
  · exact read

/-- An empty scalar without a tag is null, with one it is the empty text. -/
theorem toData?_empty {tag : Option String} (read : (Node.scalar tag .plain "").toData? .document = some data) :
    data = .null ∨ data = .text "" := by
  have meant := toData?_scalar read
  cases tag with
  | none =>
    cases meant
    exact .inl rfl
  | some tag =>
    simp only [scalarValue?] at meant
    split at meant
    · cases meant
    · split at meant
      · cases meant
      · split at meant
        · cases meant
        · split at meant
          · cases meant
          · cases meant
            exact .inr rfl

/-- What is absent for an attribute is null. -/
theorem toData?_absent {tag : Option String} {style : Style} {text : String}
    (absent : (Node.scalar tag style text).isAbsent? = some true)
    (read : (Node.scalar tag style text).toData? .document = some data) : data = .null := by
  have meant := toData?_scalar read
  simp only [Node.isAbsent?] at absent
  split at absent
  · cases absent
  · rename_i plain
    have plain : style = .plain := by simpa using plain
    subst plain
    cases tag with
    | none =>
      simp only [Option.some.injEq] at absent
      simp only [scalarValue?, plainValue, absent, if_true] at meant
      exact (Option.some.inj meant).symm
    | some tag =>
      simp only at absent
      split at absent
      · rename_i isNull
        subst isNull
        split at absent
        · rename_i spellsNull
          simp only [scalarValue?, spellsNull, if_true] at meant
          rw [if_neg (by decide), if_neg (by decide), if_neg (by decide)] at meant
          exact (Option.some.inj meant).symm
        · cases absent
      · cases absent

theorem toData?_sequence {tag : Option String} {items : List Node}
    (read : (Node.sequence tag items).toData? .document = some data) :
    ∃ others, itemsToData? .document items = some others ∧ data = .list others := by
  simp only [Node.toData?] at read
  split at read
  · cases read
  · obtain ⟨others, each, rfl⟩ := Option.map_eq_some_iff.mp read
    exact ⟨others, each, rfl⟩

theorem toData?_mapping {tag : Option String} {entries : List (Node × Node)}
    (read : (Node.mapping tag entries).toData? .document = some data) :
    ∃ pairs, entriesToData? .document entries = some pairs ∧ Json.objectData? pairs = some data := by
  simp only [Node.toData?] at read
  split at read
  · cases read
  · exact Option.bind_eq_some_iff.mp read

theorem forall₂_of_itemsToData? {items : List Node} {others : List Data}
    (read : itemsToData? rule items = some others) :
    List.Forall₂ (fun item other => item.toData? rule = some other) items others := by
  induction items generalizing others with
  | nil =>
    cases read
    exact .nil
  | cons item rest ih =>
    simp only [itemsToData?, Option.bind_eq_bind, Option.bind_eq_some_iff, Option.pure_def,
      Option.some.injEq] at read
    obtain ⟨first, isFirst, others, isOthers, rfl⟩ := read
    exact .cons isFirst (ih isOthers)

/-- The names of the pairs are those of the keys, and each value is read. -/
theorem of_entriesToData? {entries : List (Node × Node)} {pairs : List (String × Data)}
    (read : entriesToData? rule entries = some pairs) :
    Table.keys pairs = keyNames entries ∧
      ∀ entry ∈ entries, ∃ name data, entry.1.text? = some name ∧ (name, data) ∈ pairs ∧
        entry.2.toData? rule = some data := by
  induction entries generalizing pairs with
  | nil =>
    cases read
    exact ⟨rfl, by simp⟩
  | cons entry rest ih =>
    simp only [entriesToData?, Option.bind_eq_bind, Option.bind_eq_some_iff, Option.pure_def,
      Option.some.injEq] at read
    obtain ⟨name, isName, data, isData, others, isOthers, rfl⟩ := read
    obtain ⟨names, each⟩ := ih isOthers
    refine ⟨?_, List.forall_mem_cons.mpr ⟨⟨name, data, isName, List.mem_cons_self, isData⟩, ?_⟩⟩
    · rw [keyNames_cons isName, ← names]
      rfl
    · intro other member
      obtain ⟨name, data, isName, isPair, isData⟩ := each other member
      exact ⟨name, data, isName, List.mem_cons_of_mem _ isPair, isData⟩

/-- A mapping is a map of its pairs, unless it starts with the key for numbers. -/
theorem objectData?_of_nodup {pairs : List (String × Data)} (distinct : (Table.keys pairs).Nodup)
    (read : Json.objectData? pairs = some data) :
    if (Table.keys pairs).head? = some Json.numberKey then ∃ literal, data = .number literal
    else data = .map pairs := by
  cases pairs with
  | nil =>
    cases read
    simp [Table.keys]
  | cons pair rest =>
    obtain ⟨key, value⟩ := pair
    by_cases isNumber : key = Json.numberKey
    · rw [if_pos (by simp [Table.keys, isNumber])]
      rw [Json.objectData?.eq_def] at read
      simp only [isNumber, if_true] at read
      split at read
      · obtain ⟨literal, _, rfl⟩ := Option.map_eq_some_iff.mp read
        exact ⟨literal, rfl⟩
      · cases read
    · rw [if_neg (by simp [Table.keys, isNumber])]
      rw [Json.objectData?.eq_def] at read
      simp only [isNumber, if_false, Table.ofPairs_of_nodup distinct] at read
      exact (Option.some.inj read).symm

/-- A number is a mapping with the key for numbers alone, and a text under it. -/
theorem of_objectData?_number {pairs : List (String × Data)} {literal : String}
    (read : Json.objectData? pairs = some (.number literal)) : ∃ text, pairs = [(Json.numberKey, .text text)] := by
  cases pairs with
  | nil => cases read
  | cons pair rest =>
    obtain ⟨key, value⟩ := pair
    rw [Json.objectData?.eq_def] at read
    simp only at read
    split at read
    · rename_i same
      split at read
      · exact ⟨_, by rw [same]⟩
      · cases read
    · cases read

end Yaml

namespace ObjectModel

variable {model : ObjectModel} {field : Field} {range : Range} {raw : Data}

theorem orMalformed_eq_ok_iff {α : Type} {value? : Option α} {value : α} :
    orMalformed value? = .ok value ↔ value? = some value := by
  cases value? <;> simp [orMalformed]

/-- A mapping is read for a class of the model. -/
theorem of_mappingData {read : ClassModel → Except BlockError (Table Data)}
    (success : model.mappingData range read = .ok raw) :
    ∃ className classModel table, range = .instanceOf className ∧
      model.class? className = some classModel ∧ read classModel = .ok table ∧ raw = .map table := by
  cases range with
  | scalar kind => cases success
  | instanceOf className =>
    simp only [mappingData] at success
    split at success
    · cases success
    · rename_i classModel found
      obtain ⟨table, isTable, isMap⟩ := map_eq_ok_iff.mp success
      exact ⟨className, classModel, table, rfl, found, isTable, isMap.symm⟩

/-- Only an empty plain scalar has no parts. -/
theorem of_requireEmpty {α : Type} {items? : Option (List α)} {none : List Data}
    (success : requireEmpty items? = .ok none) : items? = some [] ∧ none = [] := by
  unfold requireEmpty at success
  split at success
  · exact ⟨rfl, (Except.ok.inj success).symm⟩
  · cases success

theorem eq_empty_of_entries? {tag : Option String} {style : Style} {text : String}
    {entries : List (Node × Node)} (none : (Node.scalar tag style text).entries? = some entries) :
    style = .plain ∧ text = "" ∧ entries = [] := by
  unfold Node.entries? at none
  split at none
  · rename_i other
    cases other
  · rename_i same
    cases same
    cases none
    exact ⟨rfl, rfl, rfl⟩
  · cases none

theorem eq_empty_of_items? {tag : Option String} {style : Style} {text : String}
    (none : (Node.scalar tag style text).items? = some []) : style = .plain ∧ text = "" := by
  unfold Node.items? at none
  split at none
  · rename_i other
    cases other
  · rename_i same
    cases same
    exact ⟨rfl, rfl⟩
  · cases none

/-- A scalar is read as its text, or if nothing is written and an instance is expected as an empty map. -/
theorem of_scalarData {tag : Option String} {style : Style} {text : String}
    (success : model.scalarData range (.scalar tag style text) = .ok raw) :
    (∃ kind, range = .scalar kind ∧ raw = .text text) ∨
      ∃ className classModel, range = .instanceOf className ∧ model.class? className = some classModel ∧
        style = .plain ∧ text = "" ∧ raw = .map [] := by
  cases range with
  | scalar kind =>
    simp only [scalarData, Node.text?, orMalformed, Except.map, Except.ok.injEq] at success
    exact .inl ⟨kind, rfl, success.symm⟩
  | instanceOf className =>
    simp only [scalarData] at success
    obtain ⟨_, classModel, table, same, found, empty, rfl⟩ := of_mappingData success
    cases same
    obtain ⟨none, isEmpty, isTable⟩ := map_eq_ok_iff.mp empty
    obtain ⟨plain, isText, _⟩ := eq_empty_of_entries? (of_requireEmpty isEmpty).1
    exact .inr ⟨className, classModel, rfl, found, plain, isText, by rw [← isTable]⟩

/-- A scalar for an attribute is absent, or an empty list, or what a scalar is for the range. -/
theorem of_readAttribute_scalar {tag : Option String} {style : Style} {text : String}
    (success : readAttribute model field (.scalar tag style text) = .ok raw) :
    ((Node.scalar tag style text).isAbsent? = some true ∧ raw = .null) ∨
      ((Node.scalar tag style text).isAbsent? = some false ∧
        ((field.multivalued = true ∧ style = .plain ∧ text = "" ∧ raw = .list []) ∨
          (field.multivalued = false ∧ model.scalarData field.range (.scalar tag style text) = .ok raw))) := by
  simp only [readAttribute, fieldScalarData] at success
  split at success
  · cases success
  · rename_i absent
    exact .inl ⟨absent, (Except.ok.inj success).symm⟩
  · rename_i present
    refine .inr ⟨present, ?_⟩
    cases several : field.multivalued with
    | false =>
      rw [several, if_neg (by simp)] at success
      exact .inr ⟨rfl, success⟩
    | true =>
      rw [several, if_pos rfl] at success
      obtain ⟨none, isEmpty, isList⟩ := map_eq_ok_iff.mp success
      obtain ⟨items, rfl⟩ := of_requireEmpty isEmpty
      obtain ⟨plain, isText⟩ := eq_empty_of_items? items
      exact .inl ⟨rfl, plain, isText, isList.symm⟩

theorem forall₂_of_readElements {nodes : List Node} {raws : List Data}
    (success : readElements model range nodes = .ok raws) :
    List.Forall₂ (fun node raw => readElement model range node = .ok raw) nodes raws := by
  induction nodes generalizing raws with
  | nil =>
    cases success
    exact .nil
  | cons node rest ih =>
    simp only [readElements, bind_eq_ok_iff] at success
    obtain ⟨first, isFirst, others, isOthers, done⟩ := success
    cases done
    exact .cons isFirst (ih isOthers)

/-- A sequence for an attribute of several values is a list of its elements. -/
theorem of_readAttribute_sequence {tag : Option String} {nodes : List Node}
    (success : readAttribute model field (.sequence tag nodes) = .ok raw) :
    field.multivalued = true ∧ ∃ raws, readElements model field.range nodes = .ok raws ∧ raw = .list raws := by
  simp only [readAttribute] at success
  split at success
  · rename_i several
    obtain ⟨raws, each, isList⟩ := map_eq_ok_iff.mp success
    exact ⟨several, raws, each, isList.symm⟩
  · obtain ⟨_, _, _, _, _, refused, _⟩ := of_mappingData success
    cases refused

/-- A mapping for an attribute of one value is an element. -/
theorem of_readAttribute_mapping {tag : Option String} {entries : List (Node × Node)}
    (success : readAttribute model field (.mapping tag entries) = .ok raw) :
    field.multivalued = false ∧ readElement model field.range (.mapping tag entries) = .ok raw := by
  simp only [readAttribute] at success
  split at success
  · cases success
  · rename_i single
    exact ⟨by simpa using single, by simpa only [readElement] using success⟩

/-- The entries of a mapping are read under distinct names, those of attributes along the field table. -/
theorem of_readEntries {classModel : ClassModel} {entries : List (Node × Node)} {table result : Table Data}
    (success : readEntries model classModel table entries = .ok result) (distinct : table.keys.Nodup) :
    result.keys.Nodup ∧ result.keys = table.keys ++ Yaml.keyNames entries ∧ table ⊆ result ∧
      ∀ entry ∈ entries, ∃ name raw, entry.1.text? = some name ∧ (name, raw) ∈ result ∧
        ∀ field, classModel.field? name = some field → readAttribute model field entry.2 = .ok raw := by
  induction entries generalizing table with
  | nil =>
    cases success
    exact ⟨distinct, (List.append_nil _).symm, List.Subset.refl _, by simp⟩
  | cons entry rest ih =>
    simp only [readEntries, bind_eq_ok_iff, orMalformed_eq_ok_iff] at success
    obtain ⟨name, isName, success⟩ := success
    split at success
    · cases success
    · rename_i isNew
      obtain ⟨raw, isRaw, success⟩ : ∃ raw,
          (∀ field, classModel.field? name = some field → readAttribute model field entry.2 = .ok raw) ∧
            readEntries model classModel (table ++ [(name, raw)]) rest = .ok result := by
        cases isField : classModel.field? name with
        | none =>
          simp only [isField, bind_eq_ok_iff] at success
          obtain ⟨raw, _, success⟩ := success
          exact ⟨raw, by simp, success⟩
        | some field =>
          simp only [isField, bind_eq_ok_iff] at success
          obtain ⟨raw, isRaw, success⟩ := success
          exact ⟨raw, by simpa using isRaw, success⟩
      rw [Table.has_iff_mem_keys] at isNew
      have keys : Table.keys (table ++ [(name, raw)]) = table.keys ++ [name] := by simp [Table.keys]
      have stillDistinct : (Table.keys (table ++ [(name, raw)])).Nodup := by
        rw [← Table.set_of_not_mem isNew]
        exact Table.nodup_keys_set distinct name raw
      obtain ⟨nodup, names, kept, each⟩ := ih success stillDistinct
      refine ⟨nodup, ?_, fun row member => kept (List.mem_append_left _ member),
        List.forall_mem_cons.mpr ⟨⟨name, raw, isName, kept (by simp), isRaw⟩, each⟩⟩
      rw [names, keys, Yaml.keyNames_cons isName, List.append_assoc]
      rfl

/-- What both readers find in a mapping: the same distinct names, and under each of them the value of one entry,
and nothing under other names. -/
theorem tables_of_entries {classModel : ClassModel} {entries : List (Node × Node)} {table : Table Data}
    {pairs : List (String × Data)} (typed : readEntries model classModel [] entries = .ok table)
    (untyped : Yaml.entriesToData? .document entries = some pairs) :
    table.keys.Nodup ∧ table.keys = Table.keys pairs ∧
      ∀ entry ∈ entries, ∃ name raw data, entry.1.text? = some name ∧ table.get? name = some raw ∧
        Table.get? pairs name = some data ∧ entry.2.toData? .document = some data ∧
        ∀ field, classModel.field? name = some field → readAttribute model field entry.2 = .ok raw := by
  obtain ⟨distinct, names, _, typed⟩ := of_readEntries typed List.nodup_nil
  obtain ⟨others, untyped⟩ := Yaml.of_entriesToData? untyped
  have same : table.keys = Table.keys pairs := names.trans others.symm
  refine ⟨distinct, same, ?_⟩
  intro entry member
  obtain ⟨name, raw, isName, isRow, isRaw⟩ := typed entry member
  obtain ⟨other, data, isOther, isPair, isData⟩ := untyped entry member
  obtain rfl : name = other := Option.some.inj (isName.symm.trans isOther)
  exact ⟨name, raw, data, isName, (Table.get?_eq_some_iff_mem distinct).mpr isRow,
    (Table.get?_eq_some_iff_mem (same ▸ distinct)).mpr isPair, isData, isRaw⟩

/-- What is found under a name is the value of an entry. -/
theorem exists_entry_of_get? {classModel : ClassModel} {entries : List (Node × Node)} {table : Table Data}
    (typed : readEntries model classModel [] entries = .ok table) {name : String}
    (present : name ∈ table.keys) : ∃ entry ∈ entries, entry.1.text? = some name := by
  obtain ⟨_, names, _, _⟩ := of_readEntries typed List.nodup_nil
  rw [names] at present
  exact List.mem_filterMap.mp present

end ObjectModel

end ClassSchema
