import ClassSchema.Proofs.ResolutionRuns

/-! # What a resolved document unites

The sources of a resolved document are the document itself and, for every schema id among its imports, the
schema that the first of them brings under that id. A later import with an id that was seen before is
recorded, but what it brings is left out. The resolved document covers all its sources, so no two of them
define a name incompatibly.
-/

namespace ClassSchema

/-- Whether two URIs that may be absent are the same if both are given. -/
def AgreeUri (left right : Option String) : Prop :=
  ∀ first second, left = some first → right = some second → first = second

/-- Whether two types have the same parent and no two different URIs. -/
structure TypeDefinition.Compatible (left right : TypeDefinition) : Prop where
  typeof? : left.typeof? = right.typeof?
  uri? : AgreeUri left.uri? right.uri?

/-- Whether two attributes have the same name and shape and no two different URIs. -/
structure Attribute.Compatible (left right : Attribute) : Prop where
  name : left.name = right.name
  range : left.range = right.range
  multivalued : left.multivalued = right.multivalued
  required : left.required = right.required
  identifier : left.identifier = right.identifier
  slotUri? : AgreeUri left.slotUri? right.slotUri?

/-- Whether two classes have the same parent, no two different URIs, and compatible attributes. -/
structure ClassDefinition.Compatible (left right : ClassDefinition) : Prop where
  parent? : left.parent? = right.parent?
  uri? : AgreeUri left.uri? right.uri?
  attributes : List.Forall₂ Attribute.Compatible left.attributes right.attributes

/-- Whether whatever two tables both have under one name is compatible. -/
def Table.Compatible {α : Type} (compatible : α → α → Prop) (left right : Table α) : Prop :=
  ∀ name first second, left.get? name = some first → right.get? name = some second → compatible first second

/-- Whether no name is defined incompatibly in two documents. -/
structure Document.Compatible (left right : Document) : Prop where
  prefixes : left.prefixes.Compatible Eq right.prefixes
  types : left.types.Compatible TypeDefinition.Compatible right.types
  classes : left.classes.Compatible ClassDefinition.Compatible right.classes

section Covered

theorem CoversUri.agreeUri {bound left right : Option String} (overLeft : CoversUri bound left)
    (overRight : CoversUri bound right) : AgreeUri left right := by
  intro first second isFirst isSecond
  exact Option.some.inj ((overLeft first isFirst).symm.trans (overRight second isSecond))

theorem TypeDefinition.Covers.compatible {bound left right : TypeDefinition} (overLeft : bound.Covers left)
    (overRight : bound.Covers right) : left.Compatible right :=
  ⟨overLeft.typeof?.symm.trans overRight.typeof?, overLeft.uri?.agreeUri overRight.uri?⟩

theorem Attribute.Covers.compatible {bound left right : Attribute} (overLeft : bound.Covers left)
    (overRight : bound.Covers right) : left.Compatible right where
  name := overLeft.name.symm.trans overRight.name
  range := overLeft.range.symm.trans overRight.range
  multivalued := overLeft.multivalued.symm.trans overRight.multivalued
  required := overLeft.required.symm.trans overRight.required
  identifier := overLeft.identifier.symm.trans overRight.identifier
  slotUri? := overLeft.slotUri?.agreeUri overRight.slotUri?

theorem ClassDefinition.Covers.compatible {bound left right : ClassDefinition} (overLeft : bound.Covers left)
    (overRight : bound.Covers right) : left.Compatible right :=
  ⟨overLeft.parent?.symm.trans overRight.parent?, overLeft.uri?.agreeUri overRight.uri?,
    forall₂_compose (List.Forall₂.flip (R := flip Attribute.Covers) overLeft.attributes) overRight.attributes
      Attribute.Covers.compatible⟩

theorem Table.Covers.compatible {α : Type} {covers compatible : α → α → Prop} {bound left right : Table α}
    (overLeft : bound.Covers covers left) (overRight : bound.Covers covers right)
    (each : ∀ {top first second}, covers top first → covers top second → compatible first second) :
    left.Compatible compatible right := by
  intro name first second inLeft inRight
  obtain ⟨top, present, overFirst⟩ := overLeft name first inLeft
  exact each overFirst (overRight.of_get? present inRight)

/-- Documents that some document covers define no name incompatibly. -/
theorem Document.Covers.compatible {bound left right : Document} (overLeft : bound.Covers left)
    (overRight : bound.Covers right) : left.Compatible right where
  prefixes := overLeft.prefixes.compatible overRight.prefixes fun first second => first.symm.trans second
  types := overLeft.types.compatible overRight.types TypeDefinition.Covers.compatible
  classes := overLeft.classes.compatible overRight.classes ClassDefinition.Covers.compatible

end Covered

/-- Whether a schema is a source of a resolved document: the document that was given or what the first of the
listed imports with its id brings. -/
inductive Document.IsSource (document : Document) (loader : ImportLoader) (identifiers : List String) :
    Document → Prop
  | given : IsSource document loader identifiers document
  | contributed {identifier : String} {found : Document}
      (contributes : document.Contributes loader identifiers identifier found) :
      IsSource document loader identifiers found

section

variable {document result : Document} {loader : ImportLoader}

/-- Every listed import that loads has the id of a source. -/
theorem Document.IsSource.exists_of_mem {identifiers : List String} {identifier : String} {found : Document}
    (listed : identifier ∈ identifiers) (loaded : loader.document identifier = .ok found) :
    ∃ source, document.IsSource loader identifiers source ∧ source.id = found.id := by
  by_cases own : found.id = document.id
  · exact ⟨document, .given, own.symm⟩
  · obtain ⟨first, contributed, contributes, sameId⟩ := Contributes.exists_of_mem listed loaded own
    exact ⟨contributed, .contributed contributes, sameId⟩

/-- Every resolved import has the id of a source, the resolved document covers every source, and no two
sources define a name incompatibly. -/
theorem Document.covers_sources_of_resolvesImports {text : String} (parsed : parse text = .ok document)
    (success : document.ResolvesImports loader (.ok result)) :
    (∀ identifier ∈ result.resolvedImports, ∃ found source, loader.document identifier = .ok found ∧
      document.IsSource loader result.resolvedImports source ∧ source.id = found.id) ∧
    (∀ source, document.IsSource loader result.resolvedImports source → result.Covers source) ∧
    ∀ left right, document.IsSource loader result.resolvedImports left →
      document.IsSource loader result.resolvedImports right → left.Compatible right := by
  have resolves := resolvesTo_of_resolvesImports (isNamed_of_parse parsed).1 success
  have covered (source : Document) (isSource : document.IsSource loader result.resolvedImports source) :
      result.Covers source := by
    cases isSource with
    | given => exact covers_of_resolvesImports success
    | contributed contributes => exact resolves.contributions _ _ contributes
  refine ⟨?_, covered, ?_⟩
  · intro identifier listed
    obtain ⟨found, loaded⟩ := resolves.loads identifier listed
    obtain ⟨source, isSource, sameId⟩ := IsSource.exists_of_mem listed loaded
    exact ⟨found, source, loaded, isSource, sameId⟩
  · intro left right isLeft isRight
    exact (covered left isLeft).compatible (covered right isRight)

end

/-- A schema that imports two others. -/
def Document.repeatingText : String :=
  "{id: root, name: root, imports: [first, second]}"

/-- The document of that schema. -/
def Document.repeating : Document :=
  { blank with id := "root", name := "root", imports := ["first", "second"] }

/-- Two schemas with the same id, which define a class differently. -/
def ImportSource.repeating : ImportSource :=
  .ofTable
    [("first", "{id: s, name: s, classes: {Place: {attributes: {x: }}}}"),
     ("second", "{id: s, name: t, classes: {Place: {attributes: {y: }}}}")]

/-- A schema with the class `Place`, which has one attribute. -/
def Document.placeSchema (name attr : String) : Document :=
  { blank with
    id := "s"
    name := name
    classes := [("Place", ⟨"Place", none, none, none, [⟨attr, "", false, false, false, none, none⟩]⟩)] }

/-- The document with the first of the two schemas merged in. -/
def Document.repeatingResolved : Document :=
  { repeating with
    resolvedImports := ["first", "second"]
    classes := (placeSchema "s" "x").classes }

theorem Document.parse_repeatingText : parse repeatingText = .ok repeating := by
  decide +kernel

theorem Document.resolvesImports_repeating :
    repeating.ResolvesImports ImportSource.repeating.load (.ok repeatingResolved) := by
  have ends : Resolution.runWithin ImportSource.repeating.load 3 (Resolution.start repeating) =
      some (.ok repeatingResolved) := by
    decide +kernel
  exact Resolution.ends_of_runWithin ends

theorem Document.covers_sources_of_resolvesImports_repeating :
    parse repeatingText = .ok repeating ∧
      repeating.ResolvesImports ImportSource.repeating.load (.ok repeatingResolved) ∧
      repeatingResolved.Covers (placeSchema "s" "x") ∧ repeating.Compatible (placeSchema "s" "x") := by
  have loaded : ImportSource.repeating.load.document "first" = .ok (placeSchema "s" "x") := by decide +kernel
  have contributes : repeating.Contributes ImportSource.repeating.load repeatingResolved.resolvedImports
      "first" (placeSchema "s" "x") :=
    ⟨loaded, by decide, [], ["second"], rfl, by simp⟩
  obtain ⟨_, covered, compatible⟩ :=
    covers_sources_of_resolvesImports parse_repeatingText resolvesImports_repeating
  exact ⟨parse_repeatingText, resolvesImports_repeating, covered _ (.contributed contributes),
    compatible _ _ .given (.contributed contributes)⟩

/-- A schema whose id was seen before is recorded as resolved although it defines a name differently. -/
theorem Document.exists_resolved_not_covers : ∃ document result found, parse repeatingText = .ok document ∧
    document.ResolvesImports ImportSource.repeating.load (.ok result) ∧
    "second" ∈ result.resolvedImports ∧ ImportSource.repeating.load.document "second" = .ok found ∧
    ¬ result.Covers found := by
  have loaded : ImportSource.repeating.load.document "second" = .ok (placeSchema "t" "y") := by decide +kernel
  refine ⟨_, _, _, parse_repeatingText, resolvesImports_repeating, by decide, loaded, ?_⟩
  intro covers
  obtain ⟨known, present, covering⟩ := covers.classes "Place" _ rfl
  cases present
  obtain ⟨same, _⟩ := List.forall₂_cons.mp covering.attributes
  exact absurd same.name (by decide)

end ClassSchema
