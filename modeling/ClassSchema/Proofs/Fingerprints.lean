import ClassSchema.Proofs.CanonicalText
import ClassSchema.Proofs.DeclaredAttributes
import Mathlib.Data.List.Perm.Basic

/-! # What a fingerprint identifies

The canonical text of a document determines all of it but the order in which its prefixes, types and classes
are declared. The order of the attributes of a class and of the imports shows, and so does whether an optional
text is present.
-/

namespace ClassSchema

@[simp] theorem Table.get?_append {α : Type} (left right : Table α) (name : String) :
    get? (left ++ right) name = (left.get? name).or (right.get? name) := by
  induction left with
  | nil => rfl
  | cons entry rest ih =>
    obtain ⟨key, value⟩ := entry
    rw [List.cons_append, get?_cons, get?_cons, ih]
    split <;> rfl

@[simp] theorem get?_optionalMember (name : String) (value? : Option String) (other : String) :
    Table.get? (optionalMember name value?) other = if name = other then value?.map .text else none := by
  cases value? <;> simp [optionalMember, Table.get?_cons]

theorem Table.keys_append {α : Type} (left right : Table α) :
    keys (left ++ right) = keys left ++ keys right :=
  List.map_append

theorem keys_optionalMember_sublist (name : String) (value? : Option String) :
    (Table.keys (optionalMember name value?)).Sublist [name] := by
  cases value? <;> simp [optionalMember, Table.keys]

theorem canonical_text_injective : Function.Injective fun value : String => (Data.text value).canonical :=
  fun _ _ same => Data.text.inj same

@[simp] theorem map_canonical_text_inj {left? right? : Option String} :
    left?.map (Data.canonical ∘ Data.text) = right?.map (Data.canonical ∘ Data.text) ↔ left? = right? :=
  (Option.map_injective canonical_text_injective).eq_iff

@[simp] theorem canonical_text_inj {left right : String} :
    (Data.text left).canonical = (Data.text right).canonical ↔ left = right :=
  canonical_text_injective.eq_iff

/-- The items that values are written as determine the values, in their order, if each does. -/
theorem canonical_list_eq_iff {α : Type} {toData : α → Data}
    (injective : Function.Injective fun value => (toData value).canonical) {left right : List α} :
    (Data.list (left.map toData)).canonical = (Data.list (right.map toData)).canonical ↔ left = right := by
  rw [Data.canonical, Data.canonical, Data.list.injEq, canonicalItems_eq_map, canonicalItems_eq_map,
    List.map_map, List.map_map]
  exact (List.map_injective_iff.mpr injective).eq_iff

/-- The members that a table is written as determine its entries, but not their order. -/
theorem canonical_map_table_eq_iff {α : Type} {toData : α → Data}
    (injective : Function.Injective fun value => (toData value).canonical) {left right : Table α}
    (distinct : left.keys.Nodup) :
    (Data.map (left.map fun entry => (entry.1, toData entry.2))).canonical =
        (Data.map (right.map fun entry => (entry.1, toData entry.2))).canonical ↔
      List.Perm left right := by
  have keys : Table.keys (left.map fun entry => (entry.1, toData entry.2)) = left.keys := by
    rw [Table.keys, Table.keys, List.map_map]
    rfl
  rw [Data.canonical_map_eq_iff (keys ▸ distinct), canonicalEntries_eq_map, canonicalEntries_eq_map,
    List.map_map, List.map_map]
  refine List.map_perm_map_iff ?_
  intro entry other same
  obtain ⟨name, value⟩ := Prod.mk.inj same
  exact Prod.ext name (injective value)

theorem TypeDefinition.nodup_keys_toData (definition : TypeDefinition) :
    (Table.keys definition.toData.members).Nodup := by
  simp only [toData, Data.members, Table.keys_append]
  have names := (((List.Sublist.refl ["name"]).append
    (keys_optionalMember_sublist "typeof" definition.typeof?)).append
    (keys_optionalMember_sublist "uri" definition.uri?)).append
    (keys_optionalMember_sublist "description" definition.description?)
  exact names.nodup (by decide)

theorem TypeDefinition.canonical_toData_injective :
    Function.Injective fun definition : TypeDefinition => definition.toData.canonical := by
  intro left right same
  have members := Data.canonical_member_eq left.nodup_keys_toData same
  have name := members "name"
  have parent := members "typeof"
  have uri := members "uri"
  have description := members "description"
  simp [toData, Data.members, Table.get?_cons] at name parent uri description
  rw [mk.injEq]
  exact ⟨name, parent, uri, description⟩

theorem Attribute.nodup_keys_toData (attr : Attribute) : (Table.keys attr.toData.members).Nodup := by
  simp only [toData, Data.members, Table.keys_append]
  have names := ((List.Sublist.refl ["name", "range", "multivalued", "required", "identifier"]).append
    (keys_optionalMember_sublist "slot_uri" attr.slotUri?)).append
    (keys_optionalMember_sublist "description" attr.description?)
  exact names.nodup (by decide)

theorem Attribute.canonical_toData_injective :
    Function.Injective fun attr : Attribute => attr.toData.canonical := by
  intro left right same
  have members := Data.canonical_member_eq left.nodup_keys_toData same
  have name := members "name"
  have range := members "range"
  have multivalued := members "multivalued"
  have required := members "required"
  have identifier := members "identifier"
  have slotUri := members "slot_uri"
  have description := members "description"
  simp [toData, Data.members, Table.get?_cons, Data.canonical]
    at name range multivalued required identifier slotUri description
  rw [mk.injEq]
  exact ⟨name, range, multivalued, required, identifier, slotUri, description⟩

theorem ClassDefinition.nodup_keys_toData (definition : ClassDefinition) :
    (Table.keys definition.toData.members).Nodup := by
  simp only [toData, Data.members, Table.keys_append]
  have names := ((((List.Sublist.refl ["name"]).append
    (keys_optionalMember_sublist "description" definition.description?)).append
    (keys_optionalMember_sublist "is_a" definition.parent?)).append
    (keys_optionalMember_sublist "class_uri" definition.uri?)).append (List.Sublist.refl ["attributes"])
  exact names.nodup (by decide)

theorem ClassDefinition.canonical_toData_injective :
    Function.Injective fun definition : ClassDefinition => definition.toData.canonical := by
  intro left right same
  have members := Data.canonical_member_eq left.nodup_keys_toData same
  have name := members "name"
  have description := members "description"
  have parent := members "is_a"
  have uri := members "class_uri"
  have attributes := members "attributes"
  simp [toData, Data.members, Table.get?_cons, canonical_list_eq_iff Attribute.canonical_toData_injective]
    at name description parent uri attributes
  rw [mk.injEq]
  exact ⟨name, description, parent, uri, attributes⟩

/-- Whether two documents are equal up to the order of their prefixes, types and classes. -/
structure Document.EqualUpToOrder (left right : Document) : Prop where
  id : left.id = right.id
  name : left.name = right.name
  description? : left.description? = right.description?
  defaultPrefix? : left.defaultPrefix? = right.defaultPrefix?
  prefixes : List.Perm left.prefixes right.prefixes
  imports : left.imports = right.imports
  resolvedImports : left.resolvedImports = right.resolvedImports
  defaultRange? : left.defaultRange? = right.defaultRange?
  types : List.Perm left.types right.types
  classes : List.Perm left.classes right.classes

namespace Document

theorem nodup_keys_toData (document : Document) : (Table.keys document.toData.members).Nodup := by
  simp only [toData, Data.members, Table.keys_append]
  have names := (((((List.Sublist.refl ["id", "name"]).append
    (keys_optionalMember_sublist "description" document.description?)).append
    (keys_optionalMember_sublist "default_prefix" document.defaultPrefix?)).append
    (List.Sublist.refl ["prefixes", "imports", "resolved_imports"])).append
    (keys_optionalMember_sublist "default_range" document.defaultRange?)).append
    (List.Sublist.refl ["types", "classes"])
  exact names.nodup (by decide)

theorem canonical_toData_eq_iff {left right : Document} (named : left.IsNamed) :
    left.toData.canonical = right.toData.canonical ↔ left.EqualUpToOrder right := by
  have prefixes : _ ↔ List.Perm left.prefixes right.prefixes :=
    canonical_map_table_eq_iff canonical_text_injective named.prefixes
  have types : _ ↔ List.Perm left.types right.types :=
    canonical_map_table_eq_iff TypeDefinition.canonical_toData_injective named.types.distinct
  have classes : _ ↔ List.Perm left.classes right.classes :=
    canonical_map_table_eq_iff ClassDefinition.canonical_toData_injective named.classes.distinct
  constructor
  · intro same
    have members := Data.canonical_member_eq left.nodup_keys_toData same
    have isId := members "id"
    have isName := members "name"
    have description := members "description"
    have defaultPrefix := members "default_prefix"
    have isPrefixes := members "prefixes"
    have imports := members "imports"
    have resolvedImports := members "resolved_imports"
    have defaultRange := members "default_range"
    have isTypes := members "types"
    have isClasses := members "classes"
    simp [toData, Data.members, Table.get?_cons, prefixes, types, classes,
      canonical_list_eq_iff canonical_text_injective]
      at isId isName description defaultPrefix isPrefixes imports resolvedImports defaultRange isTypes
        isClasses
    exact ⟨isId, isName, description, defaultPrefix, isPrefixes, imports, resolvedImports, defaultRange,
      isTypes, isClasses⟩
  · intro equal
    have prefixes := prefixes.mpr equal.prefixes
    have types := types.mpr equal.types
    have classes := classes.mpr equal.classes
    unfold toData
    rw [Data.canonical, Data.canonical]
    simp [canonicalEntries_eq_map, equal.id, equal.name, equal.description?, equal.defaultPrefix?,
      equal.imports, equal.resolvedImports, equal.defaultRange?, prefixes, types, classes]

end Document

namespace Json

@[simp] theorem entriesHaveNumerals_optionalMember (name : String) (value? : Option String) :
    entriesHaveNumerals (optionalMember name value?) := by
  cases value? <;> simp [optionalMember, entriesHaveNumerals, HasNumerals]

theorem itemsHaveNumerals_map {α : Type} {toData : α → Data}
    (each : ∀ value, HasNumerals (toData value)) (values : List α) :
    itemsHaveNumerals (values.map toData) := by
  rw [itemsHaveNumerals_iff]
  exact List.forall_mem_map.mpr fun value _ => each value

theorem entriesHaveNumerals_map {α : Type} {toData : α → Data}
    (each : ∀ value, HasNumerals (toData value)) (table : Table α) :
    entriesHaveNumerals (table.map fun entry => (entry.1, toData entry.2)) := by
  rw [entriesHaveNumerals_iff]
  exact List.forall_mem_map.mpr fun entry _ => each entry.2

theorem hasNumerals_text (value : String) : HasNumerals (.text value) := trivial

end Json

theorem TypeDefinition.hasNumerals_toData (definition : TypeDefinition) :
    Json.HasNumerals definition.toData := by
  simp [toData, Json.HasNumerals, Json.entriesHaveNumerals_append, Json.entriesHaveNumerals]

theorem Attribute.hasNumerals_toData (attr : Attribute) : Json.HasNumerals attr.toData := by
  simp [toData, Json.HasNumerals, Json.entriesHaveNumerals_append, Json.entriesHaveNumerals]

theorem ClassDefinition.hasNumerals_toData (definition : ClassDefinition) :
    Json.HasNumerals definition.toData := by
  simp [toData, Json.HasNumerals, Json.entriesHaveNumerals_append, Json.entriesHaveNumerals,
    Json.itemsHaveNumerals_map Attribute.hasNumerals_toData]

theorem Document.hasNumerals_toData (document : Document) : Json.HasNumerals document.toData := by
  simp [toData, Json.HasNumerals, Json.entriesHaveNumerals_append, Json.entriesHaveNumerals,
    Json.itemsHaveNumerals_map Json.hasNumerals_text, Json.entriesHaveNumerals_map Json.hasNumerals_text,
    Json.entriesHaveNumerals_map TypeDefinition.hasNumerals_toData,
    Json.entriesHaveNumerals_map ClassDefinition.hasNumerals_toData]

/-- Where one document comes from a text, with its imports resolved or not, another one has the same canonical
text exactly if the two are equal up to the order of their prefixes, types and classes. -/
theorem Document.canonicalText_eq_iff_equalUpToOrder {left right : Document} (produced : left.IsProduced) :
    left.toData.canonicalText = right.toData.canonicalText ↔ left.EqualUpToOrder right := by
  rw [Data.canonicalText_eq_iff left.hasNumerals_toData right.hasNumerals_toData,
    canonical_toData_eq_iff produced.isNamed]

/-- A schema with given imports and blank classes of given names. -/
def Document.ofNames (imports classes : List String) : Document :=
  { blank with
    id := "s"
    name := "s"
    imports := imports
    classes := classes.map fun name => (name, ⟨name, none, none, none, []⟩) }

/-- The order of two classes does not show in the canonical text, the order of two imports does. -/
theorem Document.canonicalText_ofNames :
    parse "{id: s, name: s, imports: [u, v], classes: {A: , B: }}" = .ok (ofNames ["u", "v"] ["A", "B"]) ∧
    parse "{classes: {B: , A: }, imports: [u, v], id: s, name: s}" = .ok (ofNames ["u", "v"] ["B", "A"]) ∧
    (ofNames ["u", "v"] ["A", "B"]).toData.canonicalText =
      (ofNames ["u", "v"] ["B", "A"]).toData.canonicalText ∧
    (ofNames ["u", "v"] ["A", "B"]).toData.canonicalText ≠
      (ofNames ["v", "u"] ["A", "B"]).toData.canonicalText := by
  have parsed : parse "{id: s, name: s, imports: [u, v], classes: {A: , B: }}" =
      .ok (ofNames ["u", "v"] ["A", "B"]) := by decide +kernel
  have reordered : parse "{classes: {B: , A: }, imports: [u, v], id: s, name: s}" =
      .ok (ofNames ["u", "v"] ["B", "A"]) := by decide +kernel
  have produced := IsProduced.parsed parsed
  refine ⟨parsed, reordered, ?_, ?_⟩
  · exact (canonicalText_eq_iff_equalUpToOrder produced).mpr
      ⟨rfl, rfl, rfl, rfl, .refl _, rfl, rfl, rfl, .refl _, .swap _ _ _⟩
  · intro same
    have imports := ((canonicalText_eq_iff_equalUpToOrder produced).mp same).imports
    exact absurd imports (by decide)

end ClassSchema
