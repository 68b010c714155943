import ClassSchema.Document.Reader
import ClassSchema.Proofs.Tables

/-! # Names in documents that are read

A table that is read from a text has no name twice, because a key that comes again is a fault, and the
definition under a name has that name.
-/

namespace ClassSchema

/-- A sequence of two steps succeeds exactly if both do. -/
theorem bind_eq_ok_iff {ε α β : Type} {first : Except ε α} {second : α → Except ε β} {result : β} :
    (first >>= second) = .ok result ↔ ∃ value, first = .ok value ∧ second value = .ok result := by
  cases first <;> simp [bind, Except.bind]

theorem map_eq_ok_iff {ε α β : Type} {first : Except ε α} {f : α → β} {result : β} :
    first.map f = .ok result ↔ ∃ value, first = .ok value ∧ f value = result := by
  cases first <;> simp [Except.map]

theorem mapError_eq_ok_iff {ε ε' α : Type} {first : Except ε α} {f : ε → ε'} {result : α} :
    first.mapError f = .ok result ↔ first = .ok result := by
  cases first with
  | error error => exact iff_of_false nofun nofun
  | ok value => exact ⟨fun same => by cases same; rfl, fun same => by cases same; rfl⟩

/-- Whether a table has no name twice and every value has a name, its own. -/
structure Table.IsNamed {α : Type} (nameOf : α → String) (table : Table α) : Prop where
  distinct : table.keys.Nodup
  named : ∀ name value, table.get? name = some value → nameOf value = name

/-- Whether the tables of a document have no name twice and definitions stand under their own names. -/
structure Document.IsNamed (document : Document) : Prop where
  prefixes : document.prefixes.keys.Nodup
  types : document.types.IsNamed TypeDefinition.name
  classes : document.classes.IsNamed ClassDefinition.name

/-- Whether a document has an id and a name, and so has every class of it. -/
structure Document.IsIdentified (document : Document) : Prop where
  id : Text.isBlankText document.id = false
  name : Text.isBlankText document.name = false
  classes : ∀ name ∈ document.classes.keys, Text.isBlankText name = false

/-- Whether a table holds the entries of a mapping, one by one and in their order, and the value of each is
what the entry means. -/
abbrev Table.HoldsEntries {α : Type} (means : String → Yaml.Node → α → Prop) (table : Table α)
    (entries : List (Yaml.Node × Yaml.Node)) : Prop :=
  List.Forall₂ (fun member entry => member.1.text? = some entry.1 ∧ means entry.1 member.2 entry.2) entries table

/-- The entries of a mapping; any other node has none. -/
def Yaml.Node.members (node : Node) : List (Node × Node) :=
  node.entries?.getD []

/-- A node that counts as absent has no entries. -/
theorem Yaml.Node.members_of_isAbsent (node : Node) (absent : node.isAbsent? = some true) :
    node.members = [] := by
  cases node with
  | scalar tag style text => unfold members entries?; split <;> simp_all
  | _ => simp [isAbsent?] at absent

namespace Document

variable {α : Type}

/-- What every step of reading fixed keys keeps holds of the result. -/
theorem readFieldsFrom_keeps (invariant : α → Prop) {step : α → String → Yaml.Node → Reading α}
    (keeps : ∀ {value key node next}, step value key node = .ok next → invariant value → invariant next)
    {entries : List (Yaml.Node × Yaml.Node)} {seen : List String} {value result : α}
    (success : readFieldsFrom step seen value entries = .ok result) (start : invariant value) :
    invariant result := by
  induction entries generalizing seen value with
  | nil =>
    cases success
    exact start
  | cons entry rest ih =>
    obtain ⟨key, node⟩ := entry
    simp only [readFieldsFrom, bind_eq_ok_iff] at success
    obtain ⟨key, _, success⟩ := success
    split at success
    · cases success
    · obtain ⟨next, stepped, success⟩ := bind_eq_ok_iff.mp success
      exact ih success (keeps stepped start)

theorem orUnreadable_eq_ok_iff {value? : Option α} {value : α} :
    orUnreadable value? = .ok value ↔ value? = some value := by
  cases value? <;> simp [orUnreadable]

theorem readOptional_eq_none {read : Yaml.Node → Reading α} {node : Yaml.Node}
    (success : readOptional read node = .ok none) : node.isAbsent? = some true := by
  simp only [readOptional, bind_eq_ok_iff, orUnreadable_eq_ok_iff] at success
  obtain ⟨absent, known, success⟩ := success
  cases absent with
  | true => exact known
  | false => cases result : read node <;> simp [result, Functor.map, Except.map] at success

theorem readOptional_eq_some {read : Yaml.Node → Reading α} {node : Yaml.Node} {value : α}
    (success : readOptional read node = .ok (some value)) : read node = .ok value := by
  simp only [readOptional, bind_eq_ok_iff] at success
  obtain ⟨absent, _, success⟩ := success
  split at success
  · cases success
  · cases result : read node with
    | error fault => simp [result, Functor.map, Except.map] at success
    | ok known =>
      simp only [result, Functor.map, Except.map, Except.ok.injEq, Option.some.injEq] at success
      rw [success]

/-- What every step of reading fixed keys keeps holds of an optional mapping too. -/
theorem readOptionalFields_keeps (invariant : α → Prop) {step : α → String → Yaml.Node → Reading α}
    (keeps : ∀ {value key node next}, step value key node = .ok next → invariant value → invariant next)
    {initial result : α} {node : Yaml.Node} (success : readOptionalFields step initial node = .ok result)
    (start : invariant initial) : invariant result := by
  obtain ⟨read?, read, success⟩ := bind_eq_ok_iff.mp success
  cases success
  cases read? with
  | none => exact start
  | some value =>
    obtain ⟨entries, _, success⟩ := bind_eq_ok_iff.mp (readOptional_eq_some read)
    exact readFieldsFrom_keeps invariant keeps success start

/-- Reading free keys adds every entry at the end, under a new name. -/
theorem readTableFrom_spec {read : String → Yaml.Node → Reading α} {entries : List (Yaml.Node × Yaml.Node)}
    {table result : Table α} (success : readTableFrom read table entries = .ok result)
    (distinct : table.keys.Nodup) :
    result.keys.Nodup ∧ ∃ added : Table α, result = table ++ added ∧
      added.HoldsEntries (fun name node value => read name node = .ok value) entries := by
  induction entries generalizing table with
  | nil =>
    cases success
    exact ⟨distinct, [], (List.append_nil _).symm, .nil⟩
  | cons entry rest ih =>
    obtain ⟨key, node⟩ := entry
    simp only [readTableFrom, bind_eq_ok_iff] at success
    obtain ⟨key, keyRead, success⟩ := success
    split at success
    · cases success
    · rename_i isNew
      obtain ⟨value, valueRead, success⟩ := bind_eq_ok_iff.mp success
      rw [Table.has_iff_mem_keys] at isNew
      have extended : (Table.keys (table ++ [(key, value)])).Nodup := by
        rw [Table.keys, List.map_append, List.nodup_append]
        refine ⟨distinct, by simp, ?_⟩
        rintro name present other isKey rfl
        rw [List.mem_singleton.mp isKey] at present
        exact isNew present
      obtain ⟨distinctResult, added, rfl, each⟩ := ih success extended
      refine ⟨distinctResult, (key, value) :: added, by simp, .cons ?_ each⟩
      exact ⟨orUnreadable_eq_ok_iff.mp keyRead, valueRead⟩

/-- A table that may be absent has the entries of the mapping, and no name twice. -/
theorem readOptionalTable_spec {read : String → Yaml.Node → Reading α} {node : Yaml.Node} {table : Table α}
    (success : readOptionalTable read node = .ok table) :
    table.keys.Nodup ∧
      table.HoldsEntries (fun name node value => read name node = .ok value) node.members := by
  obtain ⟨read?, found, success⟩ := bind_eq_ok_iff.mp success
  cases success
  cases read? with
  | none =>
    rw [node.members_of_isAbsent (readOptional_eq_none found)]
    exact ⟨List.nodup_nil, .nil⟩
  | some table =>
    obtain ⟨entries, isMapping, success⟩ := bind_eq_ok_iff.mp (readOptional_eq_some found)
    obtain ⟨distinct, _, rfl, each⟩ := readTableFrom_spec success List.nodup_nil
    rw [Yaml.Node.members, orUnreadable_eq_ok_iff.mp isMapping]
    exact ⟨distinct, each⟩

theorem isNamed_readOptionalTable {read : String → Yaml.Node → Reading α} {nameOf : α → String}
    (names : ∀ {name node value}, read name node = .ok value → nameOf value = name) {node : Yaml.Node}
    {table : Table α} (success : readOptionalTable read node = .ok table) : table.IsNamed nameOf := by
  obtain ⟨distinct, each⟩ := readOptionalTable_spec success
  refine ⟨distinct, ?_⟩
  intro name value found
  obtain ⟨_, _, _, valueRead⟩ := exists_of_mem_forall₂ each (Table.mem_of_get? found)
  exact names valueRead

theorem name_of_readType {name : String} {node : Yaml.Node} {type : TypeDefinition}
    (success : readType name node = .ok type) : type.name = name := by
  refine readOptionalFields_keeps (fun type => type.name = name) ?_ success rfl
  intro value key node next stepped named
  unfold readTypeField at stepped
  split at stepped
  case h_4 => cases stepped
  all_goals
    obtain ⟨_, _, done⟩ := bind_eq_ok_iff.mp stepped
    cases done
    exact named

theorem name_of_readClass {name : String} {node : Yaml.Node} {definition : ClassDefinition}
    (success : readClass name node = .ok definition) : definition.name = name := by
  refine readOptionalFields_keeps (fun definition => definition.name = name) ?_ success rfl
  intro value key node next stepped named
  unfold readClassField at stepped
  split at stepped
  case h_5 => cases stepped
  all_goals
    obtain ⟨_, _, done⟩ := bind_eq_ok_iff.mp stepped
    cases done
    exact named

/-- One key of a document reads one of its tables or leaves them all alone. -/
theorem readDocumentField_cases {document next : Document} {key : String} {node : Yaml.Node}
    (stepped : readDocumentField document key node = .ok next) :
    (key = "prefixes" ∧ ∃ prefixes, readOptionalTable (fun _ => readText) node = .ok prefixes ∧
      next = { document with prefixes := prefixes }) ∨
    (key = "types" ∧ ∃ types, readOptionalTable readType node = .ok types ∧
      next = { document with types := types }) ∨
    (key = "classes" ∧ ∃ classes, readOptionalTable readClass node = .ok classes ∧
      next = { document with classes := classes }) ∨
    (key ≠ "prefixes" ∧ key ≠ "types" ∧ key ≠ "classes") ∧ next.prefixes = document.prefixes ∧
      next.types = document.types ∧ next.classes = document.classes ∧
      next.resolvedImports = document.resolvedImports := by
  unfold readDocumentField at stepped
  split at stepped
  case h_10 => cases stepped
  case h_5 =>
    obtain ⟨prefixes, read, done⟩ := bind_eq_ok_iff.mp stepped
    exact .inl ⟨rfl, prefixes, read, (Except.ok.inj done).symm⟩
  case h_8 =>
    obtain ⟨types, read, done⟩ := bind_eq_ok_iff.mp stepped
    exact .inr (.inl ⟨rfl, types, read, (Except.ok.inj done).symm⟩)
  case h_9 =>
    obtain ⟨classes, read, done⟩ := bind_eq_ok_iff.mp stepped
    exact .inr (.inr (.inl ⟨rfl, classes, read, (Except.ok.inj done).symm⟩))
  all_goals
    obtain ⟨_, _, done⟩ := bind_eq_ok_iff.mp stepped
    cases done
    exact .inr (.inr (.inr ⟨by decide, rfl, rfl, rfl, rfl⟩))

theorem isNamed_readDocumentField {document next : Document} {key : String} {node : Yaml.Node}
    (stepped : readDocumentField document key node = .ok next)
    (before : document.resolvedImports = [] ∧ document.IsNamed) :
    next.resolvedImports = [] ∧ next.IsNamed := by
  obtain ⟨unresolved, named⟩ := before
  obtain ⟨_, prefixes, read, rfl⟩ | ⟨_, types, read, rfl⟩ | ⟨_, classes, read, rfl⟩ |
    ⟨_, samePrefixes, sameTypes, sameClasses, sameImports⟩ := readDocumentField_cases stepped
  · exact ⟨unresolved, { named with prefixes := (readOptionalTable_spec read).1 }⟩
  · exact ⟨unresolved, { named with types := isNamed_readOptionalTable name_of_readType read }⟩
  · exact ⟨unresolved, { named with classes := isNamed_readOptionalTable name_of_readClass read }⟩
  · exact ⟨sameImports ▸ unresolved, samePrefixes ▸ named.prefixes, sameTypes ▸ named.types,
      sameClasses ▸ named.classes⟩

theorem eq_and_isIdentified_of_checkNames {document checked : Document}
    (success : checkNames document = .ok checked) : checked = document ∧ document.IsIdentified := by
  unfold checkNames at success
  split at success
  · cases success
  · rename_i id
    split at success
    · cases success
    · rename_i name
      split at success
      · cases success
      · rename_i classes
        cases success
        exact ⟨rfl, by simpa using id, by simpa using name, by simpa using classes⟩

/-- A document that is read from a text is what its fields were read as, and the names were checked. -/
theorem fields_of_parse {text : String} {document : Document} (parsed : parse text = .ok document) :
    readFields readDocumentField blank (Yaml.Source.ofText text).root = .ok document ∧
      document.IsIdentified := by
  obtain ⟨read, fields, checked⟩ := bind_eq_ok_iff.mp parsed
  split at checked
  · obtain ⟨rfl, identified⟩ := eq_and_isIdentified_of_checkNames checked
    exact ⟨fields, identified⟩
  · cases checked

/-- What every key of a document keeps holds of a document that is read from a text. -/
theorem parse_keeps (invariant : Document → Prop)
    (keeps : ∀ {document key node next}, readDocumentField document key node = .ok next →
      invariant document → invariant next)
    {text : String} {document : Document} (parsed : parse text = .ok document) (start : invariant blank) :
    invariant document := by
  obtain ⟨entries, _, success⟩ := bind_eq_ok_iff.mp (fields_of_parse parsed).1
  exact readFieldsFrom_keeps invariant keeps success start

/-- A document that is read from a text has no imports resolved, and its names are proper. -/
theorem isNamed_of_parse {text : String} {document : Document} (parsed : parse text = .ok document) :
    document.resolvedImports = [] ∧ document.IsNamed := by
  have start : blank.resolvedImports = [] ∧ blank.IsNamed :=
    ⟨rfl, List.nodup_nil, ⟨List.nodup_nil, by simp [blank]⟩, ⟨List.nodup_nil, by simp [blank]⟩⟩
  exact parse_keeps (fun document => document.resolvedImports = [] ∧ document.IsNamed)
    isNamed_readDocumentField parsed start

end Document

end ClassSchema
