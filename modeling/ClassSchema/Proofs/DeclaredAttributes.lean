import ClassSchema.Proofs.ImportFrame

/-! # Declared attributes

A class that is read from a text declares no attribute twice, and merging keeps it so: the merged class has the
attribute names of the class that was there. Hence no declaration is lost where it stands: a class has each of
its own attributes among the induced ones, and every induced attribute is declared by the class or by one of
its ancestors.
-/

namespace ClassSchema

/-- Whether the attributes that a class declares have distinct names. -/
def ClassDefinition.IsDistinct (definition : ClassDefinition) : Prop :=
  (definition.attributes.map Attribute.name).Nodup

/-- Whether no class of a document declares an attribute twice. -/
def Document.IsDistinct (document : Document) : Prop :=
  ∀ definition ∈ document.classes.values, definition.IsDistinct

namespace Document

theorem name_of_readAttribute {name : String} {node : Yaml.Node} {attr : Attribute}
    (success : readAttribute name node = .ok attr) : attr.name = name := by
  refine readOptionalFields_keeps (fun attr => attr.name = name) ?_ success rfl
  intro value key node next stepped named
  unfold readAttributeField at stepped
  split at stepped
  case h_7 => cases stepped
  all_goals
    obtain ⟨_, _, done⟩ := bind_eq_ok_iff.mp stepped
    cases done
    exact named

/-- The attributes of a class that is read have the keys of a table for names. -/
theorem isDistinct_of_readClass {name : String} {node : Yaml.Node} {definition : ClassDefinition}
    (success : readClass name node = .ok definition) : definition.IsDistinct := by
  refine readOptionalFields_keeps ClassDefinition.IsDistinct ?_ success List.nodup_nil
  intro value key node next stepped distinct
  unfold readClassField at stepped
  split at stepped
  case h_5 => cases stepped
  case h_4 =>
    obtain ⟨table, read, done⟩ := bind_eq_ok_iff.mp stepped
    cases done
    obtain ⟨distinct, each⟩ := readOptionalTable_spec read
    have names : table.values.map Attribute.name = table.keys := by
      rw [Table.values, List.map_map]
      apply List.map_congr_left
      intro entry member
      obtain ⟨_, _, _, read⟩ := exists_of_mem_forall₂ each member
      exact name_of_readAttribute read
    rw [ClassDefinition.IsDistinct, names]
    exact distinct
  all_goals
    obtain ⟨_, _, done⟩ := bind_eq_ok_iff.mp stepped
    cases done
    exact distinct

theorem isDistinct_readDocumentField {document next : Document} {key : String} {node : Yaml.Node}
    (stepped : readDocumentField document key node = .ok next) (before : document.IsDistinct) :
    next.IsDistinct := by
  obtain ⟨_, prefixes, read, rfl⟩ | ⟨_, types, read, rfl⟩ | ⟨_, classes, read, rfl⟩ | ⟨_, _, _, sameClasses, _⟩ :=
    readDocumentField_cases stepped
  · exact before
  · exact before
  · intro definition member
    obtain ⟨entry, stored, rfl⟩ := List.mem_map.mp member
    obtain ⟨_, _, _, read⟩ := exists_of_mem_forall₂ (readOptionalTable_spec read).2 stored
    exact isDistinct_of_readClass read
  · rw [IsDistinct, sameClasses]
    exact before

theorem isDistinct_of_parse {text : String} {document : Document} (parsed : parse text = .ok document) :
    document.IsDistinct :=
  parse_keeps IsDistinct isDistinct_readDocumentField parsed (by simp [IsDistinct, blank, Table.values])

end Document

/-- What is stored under a name is all that is new in a table. -/
theorem Table.mem_values_set {α : Type} {table : Table α} {name : String} {value other : α}
    (member : other ∈ (table.set name value).values) : other = value ∨ other ∈ table.values := by
  induction table with
  | nil => exact .inl (List.mem_singleton.mp member)
  | cons entry rest ih =>
    obtain ⟨key, first⟩ := entry
    rw [set] at member
    split at member
    · exact (List.mem_cons.mp member).imp_right (List.mem_cons_of_mem _)
    · rcases List.mem_cons.mp member with rfl | later
      · exact .inr List.mem_cons_self
      · exact (ih later).imp_right (List.mem_cons_of_mem _)

/-- What merging keeps of the known value holds of all values of a merged table. -/
theorem forall_values_mergeTable {α : Type} {merge : α → α → Merging α} {kind : DefinitionKind} {source : String}
    (holds : α → Prop) (keeps : ∀ {left right merged}, merge left right = .ok merged → holds left → holds merged)
    {entries target result : Table α} (success : mergeTable merge kind source target entries = .ok result)
    (before : ∀ value ∈ target.values, holds value) (others : ∀ value ∈ entries.values, holds value) :
    ∀ value ∈ result.values, holds value := by
  refine mergeTable_keeps (fun table => ∀ value ∈ table.values, holds value) ?_ success before
  intro table next name value present stepped before
  obtain ⟨merged, rfl, union⟩ := mergeEntry_eq_ok_iff.mp stepped
  intro other member
  rcases Table.mem_values_set member with rfl | old
  · cases found : table.get? name with
    | none =>
      rw [found] at union
      subst union
      exact others _ (List.mem_map.mpr ⟨_, present, rfl⟩)
    | some known =>
      rw [found] at union
      exact keeps union (before known (Table.mem_values_of_get? found))
  · exact before other old

/-- A class has the attribute names of one that it covers. -/
theorem ClassDefinition.Covers.isDistinct {whole part : ClassDefinition} (covers : whole.Covers part)
    (distinct : part.IsDistinct) : whole.IsDistinct := by
  rwa [IsDistinct, map_eq_map_of_forall₂ (fun _ _ covering => covering.name) covers.attributes]

theorem Document.IsDistinct.merge {target source merged : Document} (distinct : target.IsDistinct)
    (others : source.IsDistinct) (success : target.merge source = .ok merged) : merged.IsDistinct := by
  obtain ⟨_, _, _, _, _, classes, rfl⟩ := Document.merge_eq_ok_iff.mp success
  refine forall_values_mergeTable ClassDefinition.IsDistinct ?_ classes distinct others
  intro left right merged union before
  exact ((takesIn_mergeClass right).keeps union).isDistinct before

theorem Document.IsDistinct.resolvesImports {document result : Document} (distinct : document.IsDistinct)
    {loader : ImportLoader} (success : document.ResolvesImports loader (.ok result)) : result.IsDistinct :=
  success.merged_keeps Document.IsDistinct
    (fun _ before => before)
    (fun parsed union before => before.merge (isDistinct_of_parse parsed) union)
    distinct

/-- Whether a document comes from a text, with its imports resolved or not. -/
inductive Document.IsProduced : Document → Prop
  | parsed {text : String} {document : Document} (parsed : parse text = .ok document) : IsProduced document
  | resolved {document result : Document} {loader : ImportLoader} (before : IsProduced document)
      (success : document.ResolvesImports loader (.ok result)) : IsProduced result

namespace Document.IsProduced

variable {document : Document}

theorem isNamed (produced : document.IsProduced) : document.IsNamed := by
  induction produced with
  | parsed parsed => exact (isNamed_of_parse parsed).2
  | resolved _ success ih => exact ih.resolvesImports success

theorem isDistinct (produced : document.IsProduced) : document.IsDistinct := by
  induction produced with
  | parsed parsed => exact isDistinct_of_parse parsed
  | resolved _ success ih => exact ih.resolvesImports success

end Document.IsProduced

theorem mem_overrideAttribute_self (attributes : List Attribute) (attr : Attribute) :
    attr ∈ overrideAttribute attributes attr := by
  induction attributes with
  | nil => exact List.mem_singleton_self attr
  | cons inherited rest ih =>
    rw [overrideAttribute]
    split
    · exact List.mem_cons_self
    · exact List.mem_cons_of_mem _ ih

/-- Only an attribute of the same name is replaced. -/
theorem mem_overrideAttribute_of_ne {attributes : List Attribute} {attr other : Attribute}
    (member : other ∈ attributes) (differ : other.name ≠ attr.name) :
    other ∈ overrideAttribute attributes attr := by
  induction attributes with
  | nil => cases member
  | cons inherited rest ih =>
    rw [overrideAttribute]
    rcases List.mem_cons.mp member with rfl | later
    · rw [if_neg differ]
      exact List.mem_cons_self
    · split
      · exact List.mem_cons_of_mem _ later
      · exact List.mem_cons_of_mem _ (ih later)

theorem mem_or_mem_of_mem_overrideAttribute {attributes : List Attribute} {attr other : Attribute}
    (member : other ∈ overrideAttribute attributes attr) : other ∈ attributes ∨ other = attr := by
  induction attributes with
  | nil => exact .inr (List.mem_singleton.mp member)
  | cons inherited rest ih =>
    rw [overrideAttribute] at member
    split at member
    · rcases List.mem_cons.mp member with rfl | later
      · exact .inr rfl
      · exact .inl (List.mem_cons_of_mem _ later)
    · rcases List.mem_cons.mp member with rfl | later
      · exact .inl List.mem_cons_self
      · exact (ih later).imp_left (List.mem_cons_of_mem _)

/-- What is not declared again stays. -/
theorem mem_overrideAttributes_of_not_mem {inherited own : List Attribute} {attr : Attribute}
    (member : attr ∈ inherited) (kept : attr.name ∉ own.map Attribute.name) :
    attr ∈ overrideAttributes inherited own := by
  induction own generalizing inherited with
  | nil => exact member
  | cons first rest ih =>
    rw [List.map_cons, List.mem_cons, not_or] at kept
    exact ih (mem_overrideAttribute_of_ne member kept.1) kept.2

/-- What is declared under distinct names is all there. -/
theorem mem_overrideAttributes {inherited own : List Attribute} {attr : Attribute} (member : attr ∈ own)
    (distinct : (own.map Attribute.name).Nodup) : attr ∈ overrideAttributes inherited own := by
  induction own generalizing inherited with
  | nil => cases member
  | cons first rest ih =>
    obtain ⟨isNew, distinct⟩ := List.nodup_cons.mp distinct
    rcases List.mem_cons.mp member with rfl | later
    · have stored := mem_overrideAttribute_self inherited attr
      change attr ∈ overrideAttributes (overrideAttribute inherited attr) rest
      exact mem_overrideAttributes_of_not_mem stored isNew
    · exact ih later distinct

theorem mem_or_mem_of_mem_overrideAttributes {inherited own : List Attribute} {attr : Attribute}
    (member : attr ∈ overrideAttributes inherited own) : attr ∈ inherited ∨ attr ∈ own := by
  induction own generalizing inherited with
  | nil => exact .inl member
  | cons first rest ih =>
    rcases ih member with early | later
    · exact (mem_or_mem_of_mem_overrideAttribute early).imp_right fun isFirst => by simp [isFirst]
    · exact .inr (List.mem_cons_of_mem _ later)

/-- What classes make of attributes is what was there or what one of them declares. -/
theorem mem_or_exists_of_mem_foldl {line : List ClassDefinition} {found : List Attribute} {attr : Attribute}
    (member : attr ∈ line.foldl (fun found definition => overrideAttributes found definition.attributes) found) :
    attr ∈ found ∨ ∃ definition ∈ line, attr ∈ definition.attributes := by
  induction line generalizing found with
  | nil => exact .inl member
  | cons definition rest ih =>
    rcases ih member with early | ⟨other, later, declares⟩
    · rcases mem_or_mem_of_mem_overrideAttributes early with before | own
      · exact .inl before
      · exact .inr ⟨definition, List.mem_cons_self, own⟩
    · exact .inr ⟨other, List.mem_cons_of_mem _ later, declares⟩

namespace Document

variable {document : Document} {name : String} {attributes : List Attribute} {attr : Attribute}

theorem HasLineage.mem_values {line : List ClassDefinition} (has : document.HasLineage name line) :
    ∀ definition ∈ line, definition ∈ document.classes.values := by
  induction has with
  | root defined _ =>
    intro other isRoot
    rw [List.mem_singleton.mp isRoot]
    exact Table.mem_values_of_get? defined
  | child defined _ _ ih =>
    intro other member
    rcases List.mem_append.mp member with ancestor | isChild
    · exact ih other ancestor
    · rw [List.mem_singleton.mp isChild]
      exact Table.mem_values_of_get? defined

/-- A lineage ends with the class itself. -/
theorem HasLineage.exists_eq_append {line : List ClassDefinition} (has : document.HasLineage name line)
    {definition : ClassDefinition} (defined : document.class? name = some definition) :
    ∃ ancestors, line = ancestors ++ [definition] := by
  cases has with
  | root known _ =>
    obtain rfl := Option.some.inj (known.symm.trans defined)
    exact ⟨[], rfl⟩
  | child known _ _ =>
    obtain rfl := Option.some.inj (known.symm.trans defined)
    exact ⟨_, rfl⟩

/-- A class has the attributes that it declares itself. -/
theorem mem_inducedAttributes (induced : document.inducedAttributes name = .ok attributes)
    {definition : ClassDefinition} (defined : document.class? name = some definition)
    (distinct : definition.IsDistinct) (member : attr ∈ definition.attributes) : attr ∈ attributes := by
  obtain ⟨line, has, rfl⟩ := exists_lineage_of_inducedAttributes induced
  obtain ⟨ancestors, rfl⟩ := has.exists_eq_append defined
  rw [List.foldl_append]
  exact mem_overrideAttributes member distinct

/-- Every attribute that a class has is declared by some class. -/
theorem exists_declares_of_mem_inducedAttributes (induced : document.inducedAttributes name = .ok attributes)
    (member : attr ∈ attributes) :
    ∃ definition ∈ document.classes.values, attr ∈ definition.attributes := by
  obtain ⟨line, has, rfl⟩ := exists_lineage_of_inducedAttributes induced
  rcases mem_or_exists_of_mem_foldl member with nothing | ⟨definition, inLine, declares⟩
  · cases nothing
  · exact ⟨definition, has.mem_values definition inLine, declares⟩

/-- What holds of all induced attributes holds of all declared ones, and the other way round: a declaration
that is overridden in a descendant is not overridden where it stands. -/
theorem forall_inducedAttributes_iff (produced : document.IsProduced)
    (each : ∀ name ∈ document.classes.keys, ∃ attributes, document.inducedAttributes name = .ok attributes)
    {holds : Attribute → Prop} :
    (∀ name ∈ document.classes.keys, ∀ attributes, document.inducedAttributes name = .ok attributes →
        ∀ attr ∈ attributes, holds attr) ↔
      ∀ definition ∈ document.classes.values, ∀ attr ∈ definition.attributes, holds attr := by
  constructor
  · intro held definition member attr declares
    obtain ⟨⟨name, _⟩, stored, rfl⟩ := List.mem_map.mp member
    have defined := (Table.get?_eq_some_iff_mem produced.isNamed.classes.distinct).mpr stored
    have isClass : name ∈ document.classes.keys := List.mem_map_of_mem stored
    obtain ⟨attributes, induced⟩ := each name isClass
    exact held name isClass attributes induced attr
      (mem_inducedAttributes induced defined (produced.isDistinct _ member) declares)
  · intro held name _ attributes induced attr member
    obtain ⟨definition, isDefined, declares⟩ := exists_declares_of_mem_inducedAttributes induced member
    exact held definition isDefined attr declares

end Document

end ClassSchema
