import ClassSchema.Proofs.DeclaredAttributes

/-! # What a text says and what is read from it

The prefixes, types, classes and attributes of a document that is read from a text are the entries of the
mappings in the text, one by one and in their order, and each definition says what its entry says. A key that
comes twice in one of these mappings is a fault. Documents that come from texts, with their imports resolved or
not, have names, and their definitions stand under their own names.
-/

namespace ClassSchema

namespace Yaml

/-- The values of the entries with a given key. -/
def Node.valuesUnder (node : Node) (key : String) : List Node :=
  (node.members.filter (·.1.text? == some key)).map Prod.snd

/-- The text of a node, unless it counts as absent. -/
def Node.presentText? (node : Node) : Option String :=
  if node.isAbsent? = some true then none else node.text?

/-- What a mapping has under each key. -/
abbrev Fields := String → Option Node

/-- What entries have under each key; of several entries with one key the first counts. -/
def fieldsOf (entries : List (Node × Node)) : Fields :=
  fun key => (entries.find? (·.1.text? == some key)).map Prod.snd

/-- What a mapping has under each key. -/
def Node.fields (node : Node) : Fields :=
  fieldsOf node.members

namespace Fields

/-- The text under a key; there is none where the key or its value is absent. -/
def text? (fields : Fields) (key : String) : Option String :=
  (fields key).bind Node.presentText?

/-- The truth value under a key, which is false where the key is absent. -/
def flag (fields : Fields) (key : String) : Bool :=
  ((fields key).bind Node.bool?).getD false

/-- The entries of the mapping under a key. -/
def members (fields : Fields) (key : String) : List (Node × Node) :=
  ((fields key).map Node.members).getD []

/-- The same mapping with one more entry. -/
def add (fields : Fields) (key : String) (node : Node) : Fields :=
  fun other => if key = other then some node else fields other

section

variable (fields : Fields) (key other : String) (node : Node)

theorem text?_add :
    (fields.add key node).text? other = if key = other then node.presentText? else fields.text? other := by
  unfold text? add
  split <;> rfl

theorem flag_add :
    (fields.add key node).flag other = if key = other then node.bool?.getD false else fields.flag other := by
  unfold flag add
  split <;> rfl

theorem members_add :
    (fields.add key node).members other = if key = other then node.members else fields.members other := by
  unfold members add
  split <;> rfl

end

end Fields

end Yaml

open Yaml (Node Fields)

/-- The type that the fields of its body declare. -/
def TypeDefinition.declared (name : String) (body : Fields) : TypeDefinition where
  name := name
  typeof? := (body.text? "typeof").filter (!·.isEmpty)
  uri? := body.text? "uri"
  description? := body.text? "description"

/-- The attribute that the fields of its body declare. -/
def Attribute.declared (name : String) (body : Fields) : Attribute where
  name := name
  range := (body.text? "range").getD ""
  multivalued := body.flag "multivalued"
  required := body.flag "required"
  identifier := body.flag "identifier"
  slotUri? := body.text? "slot_uri"
  description? := body.text? "description"

/-- Whether a class is what the fields of its body declare, with the attributes that are listed there. -/
structure ClassDefinition.IsDeclared (name : String) (body : Fields) (definition : ClassDefinition) : Prop where
  name : definition.name = name
  description? : definition.description? = body.text? "description"
  parent? : definition.parent? = body.text? "is_a"
  uri? : definition.uri? = body.text? "class_uri"
  attributes : ∃ table : Table Attribute, definition.attributes = table.values ∧
    table.HoldsEntries (fun name node attr => attr = .declared name node.fields) (body.members "attributes")

/-- Whether the tables of a document hold the entries of a schema and nothing else. -/
structure Document.HoldsEntries (document : Document) (schema : Fields) : Prop where
  prefixes : document.prefixes.HoldsEntries (fun _ node uri => node.text? = some uri) (schema.members "prefixes")
  types : document.types.HoldsEntries (fun name node type => type = .declared name node.fields)
    (schema.members "types")
  classes : document.classes.HoldsEntries (fun name node definition => definition.IsDeclared name node.fields)
    (schema.members "classes")

/-- The mappings of a schema whose keys are free. -/
def Yaml.Node.freeMappings (root : Node) : List Node :=
  root.valuesUnder "prefixes" ++ root.valuesUnder "types" ++ root.valuesUnder "classes" ++
    (root.valuesUnder "classes").flatMap fun classes =>
      classes.members.flatMap fun entry => entry.2.valuesUnder "attributes"

/-- Whether two keys of a mapping are the same text. -/
def Yaml.Node.RepeatsKey (node : Node) : Prop :=
  ¬ (node.members.filterMap (·.1.text?)).Nodup

instance (node : Node) : Decidable node.RepeatsKey :=
  inferInstanceAs (Decidable (¬ _))

namespace Document

variable {α : Type}

section Fields

-- What the value means is followed from no fields on, one field more in each step.
variable (means : Fields → α → Prop) {step : α → String → Node → Reading α}
  (steps : ∀ {fields value key node next}, means fields value → step value key node = .ok next →
    means (fields.add key node) next)

include steps

/-- What each step keeps as one entry is added holds of all entries together. -/
theorem readFieldsFrom_spec {entries : List (Node × Node)} {seen : List String} {value result : α} {fields : Fields}
    (success : readFieldsFrom step seen value entries = .ok result)
    (fresh : ∀ key, key ∉ seen → fields key = none) (start : means fields value) :
    means (fun key => fields key <|> Yaml.fieldsOf entries key) result := by
  induction entries generalizing seen value fields with
  | nil =>
    cases success
    simpa [Yaml.fieldsOf] using start
  | cons entry rest ih =>
    obtain ⟨keyNode, node⟩ := entry
    simp only [readFieldsFrom, bind_eq_ok_iff] at success
    obtain ⟨key, keyRead, success⟩ := success
    split at success
    · cases success
    · rename_i unseen
      obtain ⟨next, stepped, success⟩ := bind_eq_ok_iff.mp success
      have isNew : fields key = none := fresh key (by simpa using unseen)
      have isKey : keyNode.text? = some key := orUnreadable_eq_ok_iff.mp keyRead
      have freshNext : ∀ other, other ∉ key :: seen → fields.add key node other = none := by
        intro other isOther
        rw [List.mem_cons, not_or] at isOther
        rw [Fields.add, if_neg (Ne.symm isOther.1), fresh other isOther.2]
      convert ih success freshNext (steps start stepped) using 2 with other
      by_cases same : key = other
      · subst same
        simp [Fields.add, Yaml.fieldsOf, isNew, isKey]
      · simp [Fields.add, Yaml.fieldsOf, same, isKey]

/-- What a mapping with fixed keys is read as is what its fields mean. -/
theorem readFields_spec {initial result : α} {node : Node} (success : readFields step initial node = .ok result)
    (start : means (fun _ => none) initial) : means node.fields result := by
  obtain ⟨entries, isMapping, success⟩ := bind_eq_ok_iff.mp success
  have spec := readFieldsFrom_spec means steps success (fun _ _ => rfl) start
  rw [Node.fields, Node.members, orUnreadable_eq_ok_iff.mp isMapping]
  simpa using spec

/-- A mapping that is absent has no fields. -/
theorem readOptionalFields_spec {initial result : α} {node : Node}
    (success : readOptionalFields step initial node = .ok result) (start : means (fun _ => none) initial) :
    means node.fields result := by
  obtain ⟨read?, read, success⟩ := bind_eq_ok_iff.mp success
  cases success
  cases read? with
  | none =>
    rw [Node.fields, node.members_of_isAbsent (readOptional_eq_none read)]
    exact start
  | some value => exact readFields_spec means steps (readOptional_eq_some read) start

end Fields

/-- Every entry was read in some step. -/
theorem exists_step_of_mem {step : α → String → Node → Reading α} {entries : List (Node × Node)}
    {seen : List String} {value result : α} (success : readFieldsFrom step seen value entries = .ok result)
    {entry : Node × Node} (member : entry ∈ entries) {key : String} (isKey : entry.1.text? = some key) :
    ∃ before after, step before key entry.2 = .ok after := by
  induction entries generalizing seen value with
  | nil => cases member
  | cons first rest ih =>
    obtain ⟨keyNode, node⟩ := first
    simp only [readFieldsFrom, bind_eq_ok_iff] at success
    obtain ⟨firstKey, keyRead, success⟩ := success
    split at success
    · cases success
    · obtain ⟨next, stepped, success⟩ := bind_eq_ok_iff.mp success
      rcases List.mem_cons.mp member with rfl | later
      · obtain rfl := Option.some.inj ((orUnreadable_eq_ok_iff.mp keyRead).symm.trans isKey)
        exact ⟨_, _, stepped⟩
      · exact ih success later

theorem presentText?_of_readOptionalText {node : Node} {text? : Option String}
    (success : readOptionalText node = .ok text?) : node.presentText? = text? := by
  cases text? with
  | none => rw [Node.presentText?, if_pos (readOptional_eq_none success)]
  | some text =>
    have present : node.isAbsent? ≠ some true := by
      intro absent
      simp [readOptionalText, readOptional, absent, orUnreadable, bind, Except.bind, pure, Except.pure] at success
    rw [Node.presentText?, if_neg present]
    exact orUnreadable_eq_ok_iff.mp (readOptional_eq_some success)

theorem declared_readTypeField {name : String} {fields : Fields} {type next : TypeDefinition} {key : String}
    {node : Node} (before : type = .declared name fields) (stepped : readTypeField type key node = .ok next) :
    next = .declared name (fields.add key node) := by
  subst before
  unfold readTypeField at stepped
  split at stepped
  case h_4 => cases stepped
  all_goals
    obtain ⟨_, read, done⟩ := bind_eq_ok_iff.mp stepped
    cases done
    simp [TypeDefinition.declared, Fields.text?_add, presentText?_of_readOptionalText read]

theorem declared_readAttributeField {name : String} {fields : Fields} {attr next : Attribute} {key : String}
    {node : Node} (before : attr = .declared name fields)
    (stepped : readAttributeField attr key node = .ok next) : next = .declared name (fields.add key node) := by
  subst before
  unfold readAttributeField at stepped
  split at stepped
  case h_7 => cases stepped
  case h_2 | h_3 | h_4 =>
    obtain ⟨_, read, done⟩ := bind_eq_ok_iff.mp stepped
    cases done
    simp [Attribute.declared, Fields.text?_add, Fields.flag_add, orUnreadable_eq_ok_iff.mp read]
  all_goals
    obtain ⟨_, read, done⟩ := bind_eq_ok_iff.mp stepped
    cases done
    simp [Attribute.declared, Fields.text?_add, Fields.flag_add, presentText?_of_readOptionalText read]

theorem declared_of_readType {name : String} {node : Node} {type : TypeDefinition}
    (success : readType name node = .ok type) : type = .declared name node.fields :=
  readOptionalFields_spec (fun fields type => type = .declared name fields) declared_readTypeField
    success rfl

theorem declared_of_readAttribute {name : String} {node : Node} {attr : Attribute}
    (success : readAttribute name node = .ok attr) : attr = .declared name node.fields :=
  readOptionalFields_spec (fun fields attr => attr = .declared name fields) declared_readAttributeField
    success rfl

/-- What holds of each value as it is read holds of the entries of a table. -/
theorem holdsEntries_of_readOptionalTable {read : String → Node → Reading α} {means : String → Node → α → Prop}
    (reads : ∀ {name node value}, read name node = .ok value → means name node value) {node : Node}
    {table : Table α} (success : readOptionalTable read node = .ok table) :
    table.HoldsEntries means node.members :=
  (readOptionalTable_spec success).2.imp fun _ _ each => each.imp_right reads

theorem isDeclared_readClassField {name : String} {fields : Fields} {definition next : ClassDefinition}
    {key : String} {node : Node} (before : definition.IsDeclared name fields)
    (stepped : readClassField definition key node = .ok next) : next.IsDeclared name (fields.add key node) := by
  unfold readClassField at stepped
  split at stepped
  case h_5 => cases stepped
  case h_4 =>
    obtain ⟨table, read, done⟩ := bind_eq_ok_iff.mp stepped
    cases done
    have listed := holdsEntries_of_readOptionalTable declared_of_readAttribute read
    constructor <;> simp only [Fields.text?_add, Fields.members_add]
    · exact before.name
    · exact before.description?
    · exact before.parent?
    · exact before.uri?
    · exact ⟨table, rfl, listed⟩
  all_goals
    obtain ⟨_, read, done⟩ := bind_eq_ok_iff.mp stepped
    cases done
    constructor <;> simp [Fields.text?_add, Fields.members_add, presentText?_of_readOptionalText read, before.name,
      before.description?, before.parent?, before.uri?]
    exact before.attributes

theorem isDeclared_of_readClass {name : String} {node : Node} {definition : ClassDefinition}
    (success : readClass name node = .ok definition) : definition.IsDeclared name node.fields :=
  readOptionalFields_spec (fun fields definition => definition.IsDeclared name fields)
    isDeclared_readClassField success ⟨rfl, rfl, rfl, rfl, [], rfl, .nil⟩

theorem holdsEntries_readDocumentField {fields : Fields} {document next : Document} {key : String} {node : Node}
    (before : document.HoldsEntries fields) (stepped : readDocumentField document key node = .ok next) :
    next.HoldsEntries (fields.add key node) := by
  obtain ⟨rfl, prefixes, read, rfl⟩ | ⟨rfl, types, read, rfl⟩ | ⟨rfl, classes, read, rfl⟩ |
    ⟨⟨notPrefixes, notTypes, notClasses⟩, samePrefixes, sameTypes, sameClasses, _⟩ :=
    readDocumentField_cases stepped
  · have listed := holdsEntries_of_readOptionalTable orUnreadable_eq_ok_iff.mp read
    constructor <;> simp only [Fields.members_add]
    · exact listed
    · exact before.types
    · exact before.classes
  · have listed := holdsEntries_of_readOptionalTable declared_of_readType read
    constructor <;> simp only [Fields.members_add]
    · exact before.prefixes
    · exact listed
    · exact before.classes
  · have listed := holdsEntries_of_readOptionalTable isDeclared_of_readClass read
    constructor <;> simp only [Fields.members_add]
    · exact before.prefixes
    · exact before.types
    · exact listed
  · constructor <;> simp only [Fields.members_add, notPrefixes, notTypes, notClasses, if_false]
    · exact samePrefixes ▸ before.prefixes
    · exact sameTypes ▸ before.types
    · exact sameClasses ▸ before.classes

/-- The tables of a document that is read from a text hold the entries of the text. -/
theorem holdsEntries_of_parse {text : String} {document : Document} (parsed : parse text = .ok document) :
    document.HoldsEntries (Yaml.Source.ofText text).root.fields :=
  readFields_spec (fun fields document => document.HoldsEntries fields) holdsEntries_readDocumentField
    (fields_of_parse parsed).1 ⟨.nil, .nil, .nil⟩

theorem keyTexts_of_holdsEntries {means : String → Node → α → Prop} {table : Table α}
    {entries : List (Node × Node)} (holds : table.HoldsEntries means entries) :
    entries.filterMap (·.1.text?) = table.keys := by
  induction holds with
  | nil => rfl
  | cons first _ ih =>
    rw [List.filterMap_cons, first.1, ih]
    rfl

theorem not_repeatsKey_of_readOptionalTable {read : String → Node → Reading α} {node : Node} {table : Table α}
    (success : readOptionalTable read node = .ok table) : ¬ node.RepeatsKey := by
  obtain ⟨distinct, holds⟩ := readOptionalTable_spec success
  rw [Node.RepeatsKey, not_not, keyTexts_of_holdsEntries holds]
  exact distinct

theorem exists_step_of_readFields {step : α → String → Node → Reading α} {initial result : α} {node : Node}
    (success : readFields step initial node = .ok result) {key : String} {value : Node}
    (member : value ∈ node.valuesUnder key) : ∃ before after, step before key value = .ok after := by
  obtain ⟨entries, isMapping, success⟩ := bind_eq_ok_iff.mp success
  rw [Node.valuesUnder, Node.members, orUnreadable_eq_ok_iff.mp isMapping] at member
  obtain ⟨entry, listed, rfl⟩ := List.mem_map.mp member
  obtain ⟨listed, isKey⟩ := List.mem_filter.mp listed
  exact exists_step_of_mem success listed (by simpa using isKey)

theorem exists_step_of_readOptionalFields {step : α → String → Node → Reading α} {initial result : α}
    {node : Node} (success : readOptionalFields step initial node = .ok result) {key : String} {value : Node}
    (member : value ∈ node.valuesUnder key) : ∃ before after, step before key value = .ok after := by
  obtain ⟨read?, read, _⟩ := bind_eq_ok_iff.mp success
  cases read? with
  | none =>
    rw [Node.valuesUnder, node.members_of_isAbsent (readOptional_eq_none read)] at member
    cases member
  | some result => exact exists_step_of_readFields (readOptional_eq_some read) member

/-- No mapping with free keys has a key twice in a text that is read. -/
theorem not_repeatsKey_of_parse {text : String} {document : Document} (parsed : parse text = .ok document)
    {mapping : Node} (member : mapping ∈ (Yaml.Source.ofText text).root.freeMappings) :
    ¬ mapping.RepeatsKey := by
  have fields := (fields_of_parse parsed).1
  simp only [Node.freeMappings, List.mem_append, List.mem_flatMap] at member
  obtain ((isPrefixes | isTypes) | isClasses) | ⟨classes, isClasses, entry, isClass, isAttributes⟩ := member
  · obtain ⟨_, _, stepped⟩ := exists_step_of_readFields fields isPrefixes
    obtain ⟨_, read, _⟩ := bind_eq_ok_iff.mp stepped
    exact not_repeatsKey_of_readOptionalTable read
  · obtain ⟨_, _, stepped⟩ := exists_step_of_readFields fields isTypes
    obtain ⟨_, read, _⟩ := bind_eq_ok_iff.mp stepped
    exact not_repeatsKey_of_readOptionalTable read
  · obtain ⟨_, _, stepped⟩ := exists_step_of_readFields fields isClasses
    obtain ⟨_, read, _⟩ := bind_eq_ok_iff.mp stepped
    exact not_repeatsKey_of_readOptionalTable read
  · obtain ⟨_, _, stepped⟩ := exists_step_of_readFields fields isClasses
    obtain ⟨_, read, _⟩ := bind_eq_ok_iff.mp stepped
    obtain ⟨_, _, _, body⟩ := exists_of_mem_forall₂ (readOptionalTable_spec read).2.flip isClass
    obtain ⟨_, _, stepped⟩ := exists_step_of_readOptionalFields body isAttributes
    obtain ⟨_, read, _⟩ := bind_eq_ok_iff.mp stepped
    exact not_repeatsKey_of_readOptionalTable read

end Document

/-- A merged table has no name but those of the two tables. -/
theorem forall_keys_mergeTable {α : Type} {merge : α → α → Merging α} {kind : DefinitionKind} {source : String}
    (holds : String → Prop) {entries target result : Table α}
    (success : mergeTable merge kind source target entries = .ok result)
    (before : ∀ name ∈ target.keys, holds name) (others : ∀ name ∈ entries.keys, holds name) :
    ∀ name ∈ result.keys, holds name := by
  refine mergeTable_keeps (fun table => ∀ name ∈ table.keys, holds name) ?_ success before
  intro table next name value present stepped before
  obtain ⟨merged, rfl, _⟩ := mergeEntry_eq_ok_iff.mp stepped
  intro other member
  rw [Table.keys_set] at member
  split at member
  · exact before other member
  · rcases List.mem_append.mp member with old | new
    · exact before other old
    · rw [List.mem_singleton.mp new]
      exact others name (List.mem_map_of_mem present)

namespace Document

theorem IsIdentified.merge {target source merged : Document} (identified : target.IsIdentified)
    (others : source.IsIdentified) (success : target.merge source = .ok merged) : merged.IsIdentified := by
  obtain ⟨_, _, _, _, _, classes, rfl⟩ := Document.merge_eq_ok_iff.mp success
  exact ⟨identified.id, identified.name,
    forall_keys_mergeTable (Text.isBlankText · = false) classes identified.classes others.classes⟩

theorem IsIdentified.resolvesImports {document result : Document} (identified : document.IsIdentified)
    {loader : ImportLoader} (success : document.ResolvesImports loader (.ok result)) : result.IsIdentified :=
  success.merged_keeps IsIdentified
    (fun _ before => { before with })
    (fun parsed union before => before.merge (fields_of_parse parsed).2 union)
    identified

/-- Whether a document has its names, its definitions stand under their own names, and no class declares an
attribute twice. -/
structure IsProper (document : Document) : Prop where
  identified : document.IsIdentified
  named : document.IsNamed
  distinct : document.IsDistinct

theorem isProper_of_parse {text : String} {document : Document} (parsed : parse text = .ok document) :
    document.IsProper :=
  ⟨(fields_of_parse parsed).2, (isNamed_of_parse parsed).2, isDistinct_of_parse parsed⟩

theorem IsProper.resolvesImports {document result : Document} (proper : document.IsProper)
    {loader : ImportLoader} (success : document.ResolvesImports loader (.ok result)) : result.IsProper :=
  ⟨proper.identified.resolvesImports success, proper.named.resolvesImports success,
    proper.distinct.resolvesImports success⟩

theorem IsProduced.isProper {document : Document} (produced : document.IsProduced) : document.IsProper := by
  induction produced with
  | parsed parsed => exact isProper_of_parse parsed
  | resolved _ success ih => exact ih.resolvesImports success

/-- A key that comes twice is a fault, a text that is read gives the entries it lists and no others, and what is
read is proper and stays so when imports are merged into it. -/
theorem parse_keeps_entries_and_isProper :
    (∀ text, (∃ mapping ∈ (Yaml.Source.ofText text).root.freeMappings, mapping.RepeatsKey) →
      ∃ error, parse text = .error error) ∧
    (∀ text document, parse text = .ok document →
      document.HoldsEntries (Yaml.Source.ofText text).root.fields) ∧
    (∀ document : Document, document.IsProduced → document.IsProper) ∧
    ∀ (document result : Document) (loader : ImportLoader), document.IsProper →
      document.ResolvesImports loader (.ok result) → result.IsProper := by
  refine ⟨?_, fun _ _ => holdsEntries_of_parse, fun _ => IsProduced.isProper,
    fun _ _ _ proper => proper.resolvesImports⟩
  rintro text ⟨mapping, isFree, repeats⟩
  cases parsed : parse text with
  | error error => exact ⟨error, rfl⟩
  | ok document => exact absurd repeats (not_repeatsKey_of_parse parsed isFree)

end Document

/-- A schema with a class that declares one attribute twice, once as a number and once as a text. -/
def Document.repeatedAttributeText : String :=
  "id: s\nname: s\nclasses:\n  Place:\n    attributes:\n      1:\n      \"1\":\n"

/-- A schema with entries in every table. -/
def Document.placeText : String :=
  "{id: s, name: s, prefixes: {ex: u}, imports: [towns], types: {code: {typeof: string}},
    classes: {Place: {attributes: {x: {range: code}, y: }}}}"

/-- The document of that schema. -/
def Document.place : Document :=
  { blank with
    id := "s"
    name := "s"
    prefixes := [("ex", "u")]
    imports := ["towns"]
    types := [("code", ⟨"code", some "string", none, none⟩)]
    classes := [("Place", ⟨"Place", none, none, none,
      [⟨"x", "code", false, false, false, none, none⟩, ⟨"y", "", false, false, false, none, none⟩]⟩)] }

/-- An import that declares one more class. -/
def ImportSource.towns : ImportSource :=
  .ofTable [("towns", "{id: t, name: t, classes: {Town: }}")]

/-- The document with the import merged in. -/
def Document.placeResolved : Document :=
  { place with
    resolvedImports := ["towns"]
    classes := place.classes ++ [("Town", ⟨"Town", none, none, none, []⟩)] }

theorem Document.parse_keeps_entries_and_isProper_place :
    (∃ error, parse repeatedAttributeText = .error error) ∧
      parse placeText = .ok place ∧ place.HoldsEntries (Yaml.Source.ofText placeText).root.fields ∧
      place.ResolvesImports ImportSource.towns.load (.ok placeResolved) ∧ placeResolved.IsProper := by
  obtain ⟨fails, holds, proper, kept⟩ := parse_keeps_entries_and_isProper
  have parsed : parse placeText = .ok place := by decide +kernel
  have ends : Resolution.runWithin ImportSource.towns.load 2 (Resolution.start place) =
      some (.ok placeResolved) := by
    decide +kernel
  have resolved := Resolution.ends_of_runWithin ends
  exact ⟨fails _ (by decide +kernel), parsed, holds _ _ parsed, resolved,
    kept _ _ _ (proper _ (.parsed parsed)) resolved⟩

end ClassSchema
