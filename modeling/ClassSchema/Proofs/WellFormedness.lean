import ClassSchema.Proofs.Artifacts
import ClassSchema.Proofs.DeclaredAttributes
import ClassSchema.Proofs.ParentChains

/-! # Well-formed documents

A document compiles exactly if it is well formed: its types lead to built-in ones, no class is named like a
type, its classes have lineages, the ranges of its attributes are known, and its prefixes make identifiers of
the URIs that it gives. The condition speaks of what the document declares, while the generators look at the
induced attributes of each class; no declaration escapes them.
-/

namespace ClassSchema

namespace Document

/-- Whether a name is the one of a type, built in or declared. -/
def IsTypeName (document : Document) (name : String) : Prop :=
  (builtinKind? name).isSome = true ∨ name ∈ document.types.keys

/-- Whether a name stands for a type or a class. -/
def IsRangeName (document : Document) (name : String) : Prop :=
  document.IsTypeName name ∨ name ∈ document.classes.keys

/-- Whether an attribute names a range, or names none while the default range is one. -/
def HasRange (document : Document) (attr : Attribute) : Prop :=
  attr.range ≠ "" ∧ document.IsRangeName attr.range ∨
    attr.range = "" ∧ ∃ name, document.defaultRange? = some name ∧ document.IsRangeName name

/-- Whether a text contains a scheme separator, or is a compact identifier with a declared prefix. The prefix of
a compact identifier is what stands before its first colon. -/
def IsIdentifier (document : Document) (text : String) : Prop :=
  "://".toList <:+: text.toList ∨
    ∃ name localName, text = name ++ ":" ++ localName ∧ ':' ∉ name.toList ∧ name ∈ document.prefixes.keys

/-- What a document must be like to compile. -/
structure IsWellFormed (document : Document) : Prop where
  /-- The chain of parents of each declared type ends in a built-in type, and repeats no name; a type that is
  named like a built-in one has the kind of that. A chain does not end at a name whose declaration has a parent,
  be it the one of a built-in type. -/
  types : ∀ name ∈ document.types.keys, ∃ passed last kind,
    ChainTo document.typeParent? name passed last ∧ (passed ++ [last]).Nodup ∧
      builtinKind? last = some kind ∧ ∀ builtin, builtinKind? name = some builtin → builtin = kind
  /-- No class is named like a type. -/
  apart : ∀ name ∈ document.classes.keys, ¬ document.IsTypeName name
  /-- The chain of parents of each class ends, and stays within the classes. -/
  lineages : ∀ name ∈ document.classes.keys, ∃ passed last,
    ChainTo document.classParent? name passed last ∧ ∀ other ∈ passed ++ [last], other ∈ document.classes.keys
  ranges : ∀ definition ∈ document.classes.values, ∀ attr ∈ definition.attributes, document.HasRange attr
  defaultPrefix : ∀ name, document.defaultPrefix? = some name → name ∈ document.prefixes.keys
  classUris : ∀ definition ∈ document.classes.values, ∀ uri, definition.uri? = some uri →
    document.IsIdentifier uri
  slotUris : ∀ definition ∈ document.classes.values, ∀ attr ∈ definition.attributes, ∀ uri,
    attr.slotUri? = some uri → document.IsIdentifier uri

end Document

/-- A list has a counterpart exactly if each of its elements has one. -/
theorem exists_forall₂_iff {α β : Type} {relates : α → β → Prop} {items : List α} :
    (∃ results, List.Forall₂ relates items results) ↔ ∀ item ∈ items, ∃ result, relates item result := by
  induction items with
  | nil => simp
  | cons item rest ih =>
    rw [List.forall_mem_cons, ← ih]
    constructor
    · rintro ⟨_, each⟩
      cases each with
      | cons first others => exact ⟨⟨_, first⟩, _, others⟩
    · rintro ⟨⟨_, first⟩, _, others⟩
      exact ⟨_, .cons first others⟩

/-- Parts have results exactly if there is a part for each item. -/
theorem exists_forall₂_made_iff {α β γ : Type} {relates : α → β → Prop} {make : α → β → γ} {items : List α} :
    (∃ results, List.Forall₂ (fun item result => ∃ part, relates item part ∧ make item part = result)
      items results) ↔ ∀ item ∈ items, ∃ part, relates item part := by
  rw [exists_forall₂_iff]
  constructor
  · intro each item member
    obtain ⟨_, part, related, _⟩ := each item member
    exact ⟨part, related⟩
  · intro each item member
    obtain ⟨part, related⟩ := each item member
    exact ⟨_, part, related, rfl⟩

theorem containsText_iff (part cs : List Char) : containsText part cs = true ↔ part <:+: cs := by
  induction cs with
  | nil => rw [containsText, List.isEmpty_iff, List.infix_nil]
  | cons c rest ih =>
    rw [containsText, startsWith, Bool.or_eq_true, List.isPrefixOf_iff_prefix, ih, List.infix_cons_iff]

/-- A text is cut at its first colon. -/
theorem splitAtColon?_eq_some_iff {text name localName : String} :
    splitAtColon? text = some (name, localName) ↔ text = name ++ ":" ++ localName ∧ ':' ∉ name.toList := by
  constructor
  · intro cut
    have whole := List.takeWhile_append_dropWhile (p := (· ≠ ':')) (l := text.toList)
    have first := List.head?_dropWhile_not (· ≠ ':') text.toList
    simp only [splitAtColon?] at cut
    split at cut
    · rename_i c rest ends
      cases cut
      rw [ends] at whole first
      obtain rfl : c = ':' := by simpa using first
      constructor
      · rw [← String.toList_inj, String.toList_append, String.toList_append, String.toList_ofList,
          String.toList_ofList, String.toList_ofList, List.append_assoc]
        exact whole.symm
      · rw [String.toList_ofList]
        intro inside
        simpa using List.all_eq_true.mp List.all_takeWhile ':' inside
    · cases cut
  · rintro ⟨rfl, noColon⟩
    have passes : ∀ c ∈ name.toList, decide (c ≠ ':') = true := by
      intro c member
      apply decide_eq_true
      rintro rfl
      exact noColon member
    have chars : (name ++ ":" ++ localName).toList = name.toList ++ ':' :: localName.toList := by simp
    simp only [splitAtColon?, chars, List.takeWhile_append_of_pos passes, List.dropWhile_append_of_pos passes]
    simp

namespace Document

variable {document : Document}

/-- A text has an expansion exactly if it is an identifier of the document. -/
theorem exists_expand_iff {text : String} :
    (∃ iri, document.expand text = .ok iri) ↔ document.IsIdentifier text := by
  unfold expand
  split
  · rename_i isFull
    exact iff_of_true ⟨_, rfl⟩ (.inl ((containsText_iff _ _).mp isFull))
  · rename_i notFull
    have noSeparator : ¬ "://".toList <:+: text.toList := fun inside =>
      notFull ((containsText_iff _ _).mpr inside)
    rw [IsIdentifier, or_iff_right noSeparator]
    split
    · rename_i uncut
      refine iff_of_false (by simp) ?_
      rintro ⟨name, localName, same, noColon, _⟩
      rw [splitAtColon?_eq_some_iff.mpr ⟨same, noColon⟩] at uncut
      cases uncut
    · rename_i name localName cut
      constructor
      · split
        · rename_i base declared
          intro _
          obtain ⟨same, noColon⟩ := splitAtColon?_eq_some_iff.mp cut
          refine ⟨name, localName, same, noColon, ?_⟩
          rw [← Table.has_iff_mem_keys, Table.has, declared]
          rfl
        · simp
      · rintro ⟨other, rest, same, noColon, declared⟩
        have cutAgain := splitAtColon?_eq_some_iff.mpr ⟨same, noColon⟩
        obtain ⟨rfl, rfl⟩ := Prod.mk.inj (Option.some.inj (cut.symm.trans cutAgain))
        rw [← Table.has_iff_mem_keys, Table.has, Option.isSome_iff_exists] at declared
        obtain ⟨base, declared⟩ := declared
        simp only [declared]
        exact ⟨_, rfl⟩

theorem exists_iri_iff (namespaceUri name : String) (uri? : Option String) :
    (∃ iri, document.iri namespaceUri uri? name = .ok iri) ↔
      ∀ uri, uri? = some uri → document.IsIdentifier uri := by
  cases uri? with
  | none => simp [iri]
  | some uri =>
    simp only [iri, Option.some.injEq, forall_eq', ← exists_expand_iff]
    cases document.expand uri <;> simp [Except.map]

theorem exists_namespaceUri_iff :
    (∃ uri, document.namespaceUri = .ok uri) ↔
      ∀ name, document.defaultPrefix? = some name → name ∈ document.prefixes.keys := by
  unfold namespaceUri
  cases document.defaultPrefix? with
  | none =>
    refine iff_of_true ?_ (by simp)
    simp only
    split
    · exact ⟨_, rfl⟩
    · exact ⟨_, rfl⟩
  | some name =>
    simp only [Option.some.injEq, forall_eq']
    rw [← Table.has_iff_mem_keys, Table.has]
    cases document.prefixes.get? name <;> simp

end Document

namespace TypeRegistry

variable {document : Document} {registry : TypeRegistry}

/-- A registry has the names of the built-in types and those of the declared ones. -/
theorem has_iff_isTypeName (registered : ofDocument document = .ok registry) (name : String) :
    registry.has name = true ↔ document.IsTypeName name := by
  have registers := registers_of_ofDocument registered
  rw [Table.has, Option.isSome_iff_exists, Document.IsTypeName, Option.isSome_iff_exists]
  constructor
  · rintro ⟨known, found⟩
    apply (registers.only ⟨known, found, rfl⟩).imp_left
    intro builtin
    exact ⟨_, builtins_knows_iff.mp builtin⟩
  · rintro (⟨kind, builtin⟩ | declared)
    · obtain ⟨known, found, _⟩ := registers.keeps (builtins_knows_iff.mpr builtin)
      exact ⟨known, found⟩
    · obtain ⟨kind, _, known, found, _⟩ := registers.adds name declared
      exact ⟨known, found⟩

/-- Types whose chains end, without changing the kind of what is known, are all registered. -/
theorem exists_registerAll {entries : List (String × TypeDefinition)}
    (known : ∀ name kind, registry.Knows name kind →
      builtinKind? name = some kind ∨ document.ChainEnds name kind)
    (each : ∀ entry ∈ entries, ∃ kind, document.ChainEnds entry.1 kind ∧
      ∀ builtin, builtinKind? entry.1 = some builtin → builtin = kind) :
    ∃ result, registerAll document registry entries = .ok result := by
  induction entries generalizing registry with
  | nil => exact ⟨registry, rfl⟩
  | cons entry rest ih =>
    obtain ⟨name, definition⟩ := entry
    obtain ⟨kind, ends, same⟩ := each _ List.mem_cons_self
    -- A name that is registered already is built in, or it was declared before and has the end of its chain.
    have agrees (stored : RegisteredType) (found : registry.get? name = some stored) : stored.kind = kind := by
      rcases known name stored.kind ⟨stored, found, rfl⟩ with builtin | chain
      · exact same _ builtin
      · exact chain.unique ends
    obtain ⟨next, registered⟩ : ∃ next, register document registry name definition = .ok next := by
      simp only [register, kindOf_eq_ok_iff.mpr ends, bind, Except.bind]
      cases found : registry.get? name with
      | none => exact ⟨_, rfl⟩
      | some stored =>
        simp only [agrees stored found, ne_eq, not_true, if_false]
        exact ⟨_, rfl⟩
    have registers := registers_of_register registered
    obtain ⟨result, others⟩ : ∃ result, registerAll document next rest = .ok result := by
      apply ih
      · intro other otherKind knows
        rcases registers.only knows with before | isName
        · exact known other otherKind before
        · obtain ⟨found, endsThere, knowsThere⟩ := registers.adds other isName
          exact .inr (knowsThere.unique knows ▸ endsThere)
      · intro other later
        exact each other (List.mem_cons_of_mem _ later)
    exact ⟨result, bind_eq_ok_iff.mpr ⟨next, registered, others⟩⟩

/-- A document has a registry exactly if the chain of each declared type ends, without repetition, in a built-in
type, for one that is named like a built-in type in one of the same kind. -/
theorem exists_ofDocument_iff :
    (∃ registry, ofDocument document = .ok registry) ↔
      ∀ name ∈ document.types.keys, ∃ passed last kind,
        ChainTo document.typeParent? name passed last ∧ (passed ++ [last]).Nodup ∧
          builtinKind? last = some kind ∧ ∀ builtin, builtinKind? name = some builtin → builtin = kind := by
  constructor
  · rintro ⟨registry, registered⟩ name declared
    have registers := registers_of_ofDocument registered
    obtain ⟨kind, ends, knows⟩ := registers.adds name declared
    obtain ⟨passed, last, chain, known⟩ := Document.chainEnds_iff.mp ends
    refine ⟨passed, last, kind, chain, chain.nodup, known, ?_⟩
    intro builtin isBuiltin
    exact (registers.keeps (builtins_knows_iff.mpr isBuiltin)).unique knows
  · intro each
    apply exists_registerAll
    · intro name kind knows
      exact .inl (builtins_knows_iff.mp knows)
    · intro entry member
      obtain ⟨passed, last, kind, chain, _, known, same⟩ := each entry.1 (List.mem_map_of_mem member)
      exact ⟨kind, Document.chainEnds_iff.mpr ⟨passed, last, chain, known⟩, same⟩

end TypeRegistry

namespace RangeResolver

variable {document : Document} {resolver : RangeResolver}

/-- A document has a resolver exactly if it has a registry and no class is named like a type. -/
theorem exists_ofDocument_iff :
    (∃ resolver, ofDocument document = .ok resolver) ↔
      (∃ registry, TypeRegistry.ofDocument document = .ok registry) ∧
        ∀ name ∈ document.classes.keys, ¬ document.IsTypeName name := by
  constructor
  · rintro ⟨resolver, resolves⟩
    obtain ⟨registered, _, apart⟩ := ofDocument_eq_ok resolves
    refine ⟨⟨_, registered⟩, ?_⟩
    intro name isClass isType
    rw [← Table.has_iff_mem_keys] at isClass
    rw [← TypeRegistry.has_iff_isTypeName registered, Table.has, apart name isClass] at isType
    cases isType
  · rintro ⟨⟨registry, registered⟩, apart⟩
    have none : document.classes.keys.find? registry.has = none := by
      rw [List.find?_eq_none]
      intro name isClass isType
      exact apart name isClass ((TypeRegistry.has_iff_isTypeName registered name).mp isType)
    simp only [ofDocument, registered, bind, Except.bind, none]
    exact ⟨_, rfl⟩

section

variable (resolves : ofDocument document = .ok resolver)
include resolves

/-- A name stands for a range exactly if it is the name of a type or of a class. -/
theorem exists_lookup_iff {name owner : String} :
    (∃ range, resolver.lookup name owner = .ok range) ↔ document.IsRangeName name := by
  obtain ⟨registered, same, _⟩ := ofDocument_eq_ok resolves
  rw [Document.IsRangeName, ← TypeRegistry.has_iff_isTypeName registered, ← Table.has_iff_mem_keys, ← same]
  unfold lookup Table.has
  cases resolver.registry.get? name with
  | some known => simp
  | none => cases resolver.document.classes.get? name <;> simp

/-- An attribute is resolved exactly if it has a range. -/
theorem exists_resolveAttribute_iff {owner : String} {attr : Attribute} :
    (∃ resolved, resolver.resolveAttribute owner attr = .ok resolved) ↔ document.HasRange attr := by
  have resolved : (∃ resolved, resolver.resolveAttribute owner attr = .ok resolved) ↔
      ∃ range, resolver.resolve attr = .ok range := by
    unfold resolveAttribute
    cases resolver.resolve attr <;> simp
  rw [resolved, Document.HasRange, resolve, rangeName?, (ofDocument_eq_ok resolves).2.1]
  by_cases isDefault : attr.range = ""
  · have isEmpty : "".isEmpty = true := rfl
    simp only [isDefault, isEmpty, if_true, ne_eq, not_true, false_and, true_and, false_or]
    cases document.defaultRange? with
    | none => simp
    | some name => simp [exists_lookup_iff resolves]
  · have given : attr.range.isEmpty = false := by simpa [String.isEmpty_iff] using isDefault
    simp [given, isDefault, exists_lookup_iff resolves]

/-- The attributes of a class are resolved exactly if it has induced attributes and they all have ranges. -/
theorem exists_resolveClass_iff {name : String} :
    (∃ resolved, resolver.resolveClass name = .ok resolved) ↔
      ∃ attributes, document.inducedAttributes name = .ok attributes ∧
        ∀ attr ∈ attributes, document.HasRange attr := by
  simp only [resolveClass_eq_ok_iff, (ofDocument_eq_ok resolves).2.1]
  rw [exists_comm]
  simp only [exists_and_left, exists_forall₂_iff, exists_resolveAttribute_iff resolves]

end

end RangeResolver

theorem ShapeProperty.exists_ofAttribute_iff (document : Document) (namespaceUri : String)
    (resolved : ResolvedAttribute) :
    (∃ property, ofAttribute document namespaceUri resolved = .ok property) ↔
      ∀ uri, resolved.attr.slotUri? = some uri → document.IsIdentifier uri := by
  simp only [ofAttribute_eq_ok_iff]
  rw [exists_comm]
  simp only [exists_and_left, exists_eq, and_true]
  exact Document.exists_iri_iff namespaceUri _ _

/-- A class with induced attributes has a shape exactly if its URI is an identifier, and each attribute has a
range and an identifier for a URI. -/
theorem Shape.exists_ofClass_iff {document : Document} {resolver : RangeResolver}
    (resolves : RangeResolver.ofDocument document = .ok resolver) (namespaceUri : String) {name : String}
    (definition : ClassDefinition) {attributes : List Attribute}
    (induced : document.inducedAttributes name = .ok attributes) :
    (∃ shape, ofClass resolver namespaceUri name definition = .ok shape) ↔
      (∀ uri, definition.uri? = some uri → document.IsIdentifier uri) ∧
        ∀ attr ∈ attributes, document.HasRange attr ∧
          ∀ uri, attr.slotUri? = some uri → document.IsIdentifier uri := by
  have same := RangeResolver.document_of_ofDocument resolves
  constructor
  · rintro ⟨shape, made⟩
    obtain ⟨iri, hasIri, resolved, success, properties, each, _⟩ := ofClass_eq_ok_iff.mp made
    rw [same] at hasIri each
    refine ⟨(Document.exists_iri_iff _ _ _).mp ⟨iri, hasIri⟩, ?_⟩
    intro attr member
    obtain ⟨others, again, ranges⟩ := (RangeResolver.exists_resolveClass_iff resolves).mp ⟨resolved, success⟩
    obtain rfl := Except.ok.inj (induced.symm.trans again)
    refine ⟨ranges attr member, ?_⟩
    have resolvedFrom := RangeResolver.inducedAttributes_of_resolveClass success
    rw [same] at resolvedFrom
    obtain rfl := Except.ok.inj (induced.symm.trans resolvedFrom)
    obtain ⟨result, isResult, rfl⟩ := List.mem_map.mp member
    rw [← ShapeProperty.exists_ofAttribute_iff _ namespaceUri]
    exact exists_forall₂_iff.mp ⟨properties, each⟩ result isResult
  · rintro ⟨uris, checked⟩
    obtain ⟨iri, hasIri⟩ := (Document.exists_iri_iff namespaceUri name _).mpr uris
    obtain ⟨resolved, success⟩ := (RangeResolver.exists_resolveClass_iff resolves).mpr
      ⟨attributes, induced, fun attr member => (checked attr member).1⟩
    have resolvedFrom := RangeResolver.inducedAttributes_of_resolveClass success
    rw [same] at resolvedFrom
    obtain rfl := Except.ok.inj (induced.symm.trans resolvedFrom)
    have properties : ∃ properties, List.Forall₂ (fun result property =>
        ShapeProperty.ofAttribute document namespaceUri result = .ok property) resolved properties := by
      apply exists_forall₂_iff.mpr
      intro result member
      rw [ShapeProperty.exists_ofAttribute_iff]
      exact (checked _ (List.mem_map_of_mem member)).2
    obtain ⟨properties, each⟩ := properties
    rw [← same] at hasIri each
    exact ⟨_, ofClass_eq_ok_iff.mpr ⟨iri, hasIri, resolved, success, properties, each, rfl⟩⟩

section

variable {document : Document} {resolver : RangeResolver}

theorem ObjectModel.exists_ofDocument (resolves : RangeResolver.ofDocument document = .ok resolver)
    (each : ∀ entry ∈ document.classes, ∃ resolved, resolver.resolveClass entry.1 = .ok resolved) :
    ∃ model, ofDocument document = .ok model := by
  obtain ⟨classes, made⟩ := exists_forall₂_made_iff.mpr each
  exact ⟨_, ofDocument_eq_ok_iff.mpr ⟨resolver, resolves, classes, made, rfl⟩⟩

theorem ValidationDocument.exists_ofDocument (resolves : RangeResolver.ofDocument document = .ok resolver)
    (each : ∀ entry ∈ document.classes, ∃ resolved, resolver.resolveClass entry.1 = .ok resolved) :
    ∃ validation, ofDocument document = .ok validation := by
  obtain ⟨classes, made⟩ := exists_forall₂_made_iff.mpr each
  exact ⟨_, ofDocument_eq_ok_iff.mpr ⟨resolver, resolves, classes, made, rfl⟩⟩

/-- A document has a graph exactly if it has a resolver and a namespace, and each class has a shape. -/
theorem SchemaGraph.exists_ofDocument_iff :
    (∃ graph, ofDocument document = .ok graph) ↔
      ∃ resolver, RangeResolver.ofDocument document = .ok resolver ∧
      ∃ namespaceUri, document.namespaceUri = .ok namespaceUri ∧
        ∀ entry ∈ document.classes, ∃ shape, Shape.ofClass resolver namespaceUri entry.1 entry.2 = .ok shape := by
  constructor
  · rintro ⟨graph, graphed⟩
    obtain ⟨resolver, resolves, namespaceUri, named, shapes, made, _⟩ := ofDocument_eq_ok_iff.mp graphed
    exact ⟨resolver, resolves, namespaceUri, named, exists_forall₂_made_iff.mp ⟨shapes, made⟩⟩
  · rintro ⟨resolver, resolves, namespaceUri, named, each⟩
    obtain ⟨shapes, made⟩ := exists_forall₂_made_iff.mpr each
    exact ⟨_, ofDocument_eq_ok_iff.mpr ⟨resolver, resolves, namespaceUri, named, shapes, made, rfl⟩⟩

/-- A document compiles exactly if it has a graph; the object model and the validation document need less. -/
theorem Compilation.exists_ofDocument_iff {settings : Settings} :
    (∃ compilation, ofDocument settings document = .ok compilation) ↔
      ∃ graph, SchemaGraph.ofDocument document = .ok graph := by
  constructor
  · rintro ⟨compilation, compiled⟩
    obtain ⟨_, _, graph, graphed, _⟩ := ofDocument_eq_ok_iff.mp compiled
    exact ⟨graph, graphed⟩
  · rintro ⟨graph, graphed⟩
    obtain ⟨resolver, resolves, namespaceUri, _, each⟩ := SchemaGraph.exists_ofDocument_iff.mp ⟨graph, graphed⟩
    have resolved : ∀ entry ∈ document.classes, ∃ resolved, resolver.resolveClass entry.1 = .ok resolved := by
      intro entry member
      obtain ⟨_, made⟩ := each entry member
      obtain ⟨_, _, resolved, success, _⟩ := Shape.ofClass_eq_ok_iff.mp made
      exact ⟨resolved, success⟩
    obtain ⟨model, modelled⟩ := ObjectModel.exists_ofDocument resolves resolved
    obtain ⟨validation, constrained⟩ := ValidationDocument.exists_ofDocument resolves resolved
    exact ⟨_, ofDocument_eq_ok_iff.mpr ⟨model, modelled, graph, graphed, validation, constrained, rfl⟩⟩

end

section

variable {document : Document} (produced : document.IsProduced)
include produced

/-- The classes of a document have shapes exactly if they have lineages, and what they declare is as it must
be. -/
theorem Shape.exists_each_iff {resolver : RangeResolver}
    (resolves : RangeResolver.ofDocument document = .ok resolver) (namespaceUri : String) :
    (∀ entry ∈ document.classes, ∃ shape, ofClass resolver namespaceUri entry.1 entry.2 = .ok shape) ↔
      (∀ name ∈ document.classes.keys, ∃ attributes, document.inducedAttributes name = .ok attributes) ∧
      (∀ definition ∈ document.classes.values, ∀ uri, definition.uri? = some uri → document.IsIdentifier uri) ∧
      ∀ definition ∈ document.classes.values, ∀ attr ∈ definition.attributes, document.HasRange attr ∧
        ∀ uri, attr.slotUri? = some uri → document.IsIdentifier uri := by
  constructor
  · intro each
    have lineages : ∀ name ∈ document.classes.keys,
        ∃ attributes, document.inducedAttributes name = .ok attributes := by
      intro name member
      obtain ⟨entry, isEntry, rfl⟩ := List.mem_map.mp member
      obtain ⟨_, made⟩ := each entry isEntry
      obtain ⟨_, _, resolved, success, _⟩ := ofClass_eq_ok_iff.mp made
      obtain ⟨attributes, induced, _⟩ :=
        (RangeResolver.exists_resolveClass_iff resolves).mp ⟨resolved, success⟩
      exact ⟨attributes, induced⟩
    refine ⟨lineages, ?_, ?_⟩
    · intro definition member
      obtain ⟨entry, isEntry, rfl⟩ := List.mem_map.mp member
      obtain ⟨attributes, induced⟩ := lineages entry.1 (List.mem_map_of_mem isEntry)
      exact ((exists_ofClass_iff resolves namespaceUri entry.2 induced).mp (each entry isEntry)).1
    · rw [← Document.forall_inducedAttributes_iff produced lineages]
      intro name member attributes induced
      obtain ⟨entry, isEntry, rfl⟩ := List.mem_map.mp member
      exact ((exists_ofClass_iff resolves namespaceUri entry.2 induced).mp (each entry isEntry)).2
  · rintro ⟨lineages, uris, declared⟩ entry member
    have isClass : entry.1 ∈ document.classes.keys := List.mem_map_of_mem member
    obtain ⟨attributes, induced⟩ := lineages entry.1 isClass
    rw [exists_ofClass_iff resolves namespaceUri entry.2 induced]
    refine ⟨uris entry.2 (List.mem_map_of_mem member), ?_⟩
    rw [← Document.forall_inducedAttributes_iff produced lineages] at declared
    exact declared entry.1 isClass attributes induced

/-- A document that comes from texts compiles exactly if it is well formed. -/
theorem Compilation.exists_ofDocument_iff_isWellFormed (settings : Settings) :
    (∃ compilation, ofDocument settings document = .ok compilation) ↔ document.IsWellFormed := by
  rw [exists_ofDocument_iff, SchemaGraph.exists_ofDocument_iff]
  constructor
  · rintro ⟨resolver, resolves, namespaceUri, named, shapes⟩
    obtain ⟨lineages, uris, declared⟩ := (Shape.exists_each_iff produced resolves namespaceUri).mp shapes
    obtain ⟨registry, apart⟩ := RangeResolver.exists_ofDocument_iff.mp ⟨resolver, resolves⟩
    exact {
      types := TypeRegistry.exists_ofDocument_iff.mp registry
      apart := apart
      lineages := fun name member => Document.exists_inducedAttributes_iff.mp (lineages name member)
      ranges := fun definition member attr declares => (declared definition member attr declares).1
      defaultPrefix := Document.exists_namespaceUri_iff.mp ⟨namespaceUri, named⟩
      classUris := uris
      slotUris := fun definition member attr declares => (declared definition member attr declares).2 }
  · intro wellFormed
    have registry := TypeRegistry.exists_ofDocument_iff.mpr wellFormed.types
    obtain ⟨resolver, resolves⟩ := RangeResolver.exists_ofDocument_iff.mpr ⟨registry, wellFormed.apart⟩
    obtain ⟨namespaceUri, named⟩ := Document.exists_namespaceUri_iff.mpr wellFormed.defaultPrefix
    refine ⟨resolver, resolves, namespaceUri, named, ?_⟩
    rw [Shape.exists_each_iff produced resolves]
    refine ⟨?_, wellFormed.classUris, ?_⟩
    · intro name member
      exact Document.exists_inducedAttributes_iff.mpr (wellFormed.lineages name member)
    · intro definition member attr declares
      exact ⟨wellFormed.ranges definition member attr declares,
        wellFormed.slotUris definition member attr declares⟩

end

/-- A schema with a type of its own for the default range, inheritance and a URI. -/
def Document.fleetText : String :=
  "{id: f, name: f, default_range: year, types: {year: {typeof: integer}},
    classes: {Bus: {is_a: Car}, Car: {class_uri: x://car, attributes: {built: }}}}"

theorem Compilation.exists_ofDocument_iff_isWellFormed_fleet : ∃ document,
    Document.parse Document.fleetText = .ok document ∧ document.classes.keys = ["Bus", "Car"] ∧
      (∃ compilation, ofDocument {} document = .ok compilation) ∧ document.IsWellFormed := by
  have success : ((Document.parse Document.fleetText).toOption.map fun document =>
      (document.classes.keys, (ofDocument {} document).isOk)) = some (["Bus", "Car"], true) := by
    decide +kernel
  cases parsed : Document.parse Document.fleetText with
  | error error =>
    rw [parsed] at success
    cases success
  | ok document =>
    rw [parsed] at success
    obtain ⟨keys, isOk⟩ := Prod.mk.inj (Option.some.inj success)
    have compiles := exists_eq_ok_of_isOk isOk
    exact ⟨document, rfl, keys, compiles,
      (exists_ofDocument_iff_isWellFormed (.parsed parsed) {}).mp compiles⟩

end ClassSchema
