import ClassSchema.Proofs.FieldTables
import ClassSchema.Proofs.ResolutionRuns
import ClassSchema.Proofs.TypeKinds

/-! # What imports leave alone

The resolved document has the header of the importing one and its names in their order. What it adds cannot
redirect a name that the importing document uses: chains of types end in the same kinds, classes have the
same ancestors, and a name that stood for a class stands for no type. So where both documents have object
models, the classes of the importing document have the same fields in both.
-/

namespace ClassSchema

variable {whole part : Document}

theorem Document.Covers.typeParent? (covers : whole.Covers part) {name parent : String}
    (derives : part.typeParent? name = some parent) : whole.typeParent? name = some parent := by
  obtain ⟨definition, declared, typeof?⟩ := Option.bind_eq_some_iff.mp derives
  obtain ⟨known, present, covering⟩ := covers.types name definition declared
  exact Option.bind_eq_some_iff.mpr ⟨known, present, covering.typeof?.trans typeof?⟩

/-- Chains of types end in the same kinds, even where a built-in type is declared on top of them. -/
theorem Document.Covers.chainEnds (covers : whole.Covers part) {registry : TypeRegistry}
    (registered : TypeRegistry.ofDocument whole = .ok registry) {name : String} {kind : ScalarKind}
    (ends : part.ChainEnds name kind) : whole.ChainEnds name kind := by
  induction ends with
  | builtin _ known =>
    -- The chain may go on in the wider document, which then declares the built-in type.
    exact chainEnds_of_builtinKind? registered known
  | parent derives _ ih => exact .parent (covers.typeParent? derives) ih

/-- A type is known with the same kind where more types are declared. -/
theorem Document.Covers.knows (covers : whole.Covers part) {registry wider : TypeRegistry}
    (registered : TypeRegistry.ofDocument part = .ok registry)
    (registeredWider : TypeRegistry.ofDocument whole = .ok wider) {name : String} {kind : ScalarKind}
    (knows : registry.Knows name kind) : wider.Knows name kind := by
  have ends := covers.chainEnds registeredWider (TypeRegistry.chainEnds_of_knows registered knows)
  have registers := TypeRegistry.registers_of_ofDocument registeredWider
  rcases (TypeRegistry.registers_of_ofDocument registered).only knows with builtin | declared
  · exact registers.keeps builtin
  · have declaredWider : name ∈ whole.types.keys := by
      rw [← Table.has_iff_mem_keys] at declared ⊢
      exact covers.types.has declared
    obtain ⟨other, endsWider, knowsWider⟩ := registers.adds name declaredWider
    exact endsWider.unique ends ▸ knowsWider

/-- The class of a name with its ancestors, the most distant first. -/
inductive Document.HasLineage (document : Document) : String → List ClassDefinition → Prop
  | root {name : String} {definition : ClassDefinition} (defined : document.class? name = some definition)
      (ends : definition.parent? = none) : HasLineage document name [definition]
  | child {name parent : String} {definition : ClassDefinition} {ancestors : List ClassDefinition}
      (defined : document.class? name = some definition) (derives : definition.parent? = some parent)
      (rest : HasLineage document parent ancestors) : HasLineage document name (ancestors ++ [definition])

theorem Document.hasLineage_of_lineageFrom {document : Document} {fuel : Nat} {seen : List String}
    {found classes : List ClassDefinition} {name : String}
    (success : document.lineageFrom fuel seen found name = .ok classes) :
    ∃ line, document.HasLineage name line ∧ classes = line ++ found := by
  fun_induction document.lineageFrom fuel seen found name with
  | case1 => cases success
  | case2 => cases success
  | case3 seen found name _ definition fuel defined ends =>
    cases success
    exact ⟨[definition], .root defined ends, rfl⟩
  | case4 seen found name _ definition fuel defined parent derives ih =>
    obtain ⟨ancestors, rest, rfl⟩ := ih success
    exact ⟨ancestors ++ [definition], .child defined derives rest, by simp⟩
  | case5 => cases success

/-- The induced attributes of a class come from its lineage. -/
theorem Document.exists_lineage_of_inducedAttributes {document : Document} {name : String}
    {attributes : List Attribute} (induced : document.inducedAttributes name = .ok attributes) :
    ∃ line, document.HasLineage name line ∧
      attributes = line.foldl (fun found definition => overrideAttributes found definition.attributes) [] := by
  obtain ⟨classes, lineage, ends⟩ := bind_eq_ok_iff.mp induced
  obtain ⟨line, has, rfl⟩ := hasLineage_of_lineageFrom lineage
  cases ends
  exact ⟨line, has, by rw [List.append_nil]⟩

/-- The ancestors of a class are the same where more classes are defined, each covered by what it was. -/
theorem Document.Covers.forall₂_lineage (covers : whole.Covers part) {name : String}
    {line lineWider : List ClassDefinition} (has : part.HasLineage name line)
    (hasWider : whole.HasLineage name lineWider) : List.Forall₂ ClassDefinition.Covers lineWider line := by
  induction has generalizing lineWider with
  | root defined ends =>
    cases hasWider with
    | root definedWider _ => exact .cons (covers.classes.of_get? definedWider defined) .nil
    | child definedWider derives _ =>
      have covering := covers.classes.of_get? definedWider defined
      exact absurd ((covering.parent?.trans ends).symm.trans derives) nofun
  | child defined derives _ ih =>
    cases hasWider with
    | root definedWider ends =>
      have covering := covers.classes.of_get? definedWider defined
      exact absurd (ends.symm.trans (covering.parent?.trans derives)) nofun
    | child definedWider derivesWider rest =>
      have covering := covers.classes.of_get? definedWider defined
      obtain rfl := Option.some.inj (derivesWider.symm.trans (covering.parent?.trans derives))
      exact List.rel_append (ih rest) (.cons covering .nil)

theorem forall₂_overrideAttribute {attributes others : List Attribute} {attr other : Attribute}
    (each : List.Forall₂ Attribute.Covers attributes others) (covering : attr.Covers other) :
    List.Forall₂ Attribute.Covers (overrideAttribute attributes attr) (overrideAttribute others other) := by
  induction each with
  | nil => exact .cons covering .nil
  | @cons inherited second _ _ first rest ih =>
    by_cases same : second.name = other.name
    · have sameWider : inherited.name = attr.name := first.name.trans (same.trans covering.name.symm)
      simp only [overrideAttribute, same, sameWider, if_true]
      exact .cons covering rest
    · have differ : inherited.name ≠ attr.name := by rwa [first.name, covering.name]
      simp only [overrideAttribute, same, differ, if_false]
      exact .cons first ih

theorem forall₂_overrideAttributes {inherited others own ownOthers : List Attribute}
    (each : List.Forall₂ Attribute.Covers inherited others)
    (covering : List.Forall₂ Attribute.Covers own ownOthers) :
    List.Forall₂ Attribute.Covers (overrideAttributes inherited own) (overrideAttributes others ownOthers) :=
  List.rel_foldl (P := List.Forall₂ Attribute.Covers) (R := Attribute.Covers)
    (fun _ _ before _ _ first => forall₂_overrideAttribute before first) each covering

/-- The attributes of a class, inherited ones included, are covered one by one. -/
theorem Document.Covers.forall₂_inducedAttributes (covers : whole.Covers part) {name : String}
    {attributes wider : List Attribute} (induced : part.inducedAttributes name = .ok attributes)
    (inducedWider : whole.inducedAttributes name = .ok wider) :
    List.Forall₂ Attribute.Covers wider attributes := by
  obtain ⟨line, has, rfl⟩ := exists_lineage_of_inducedAttributes induced
  obtain ⟨lineWider, hasWider, rfl⟩ := exists_lineage_of_inducedAttributes inducedWider
  exact List.rel_foldl (P := List.Forall₂ Attribute.Covers) (R := ClassDefinition.Covers)
    (fun _ _ before _ _ covering => forall₂_overrideAttributes before covering.attributes) .nil
    (covers.forall₂_lineage has hasWider)

namespace RangeResolver

/-- A resolver has the registry of its document, and no class of the document is registered as a type. -/
theorem ofDocument_eq_ok {document : Document} {resolver : RangeResolver}
    (success : ofDocument document = .ok resolver) :
    TypeRegistry.ofDocument document = .ok resolver.registry ∧ resolver.document = document ∧
      ∀ name, document.classes.has name = true → resolver.registry.get? name = none := by
  obtain ⟨registry, registered, success⟩ := bind_eq_ok_iff.mp success
  split at success
  · cases success
  · rename_i apart
    cases success
    refine ⟨registered, rfl, ?_⟩
    intro name isClass
    rw [Table.has_iff_mem_keys] at isClass
    have unregistered := List.find?_eq_none.mp apart name isClass
    simpa [Table.has] using unregistered

/-- What a name stands for: a type that the registry knows, or else a class. -/
theorem lookup_eq_ok {resolver : RangeResolver} {name owner : String} {range : Range}
    (found : resolver.lookup name owner = .ok range) :
    (∃ kind, resolver.registry.Knows name kind ∧ range = .scalar kind) ∨
      resolver.registry.get? name = none ∧ resolver.document.classes.has name = true ∧
        range = .instanceOf name := by
  unfold lookup at found
  split at found
  · rename_i known present
    cases found
    exact .inl ⟨known.kind, ⟨known, present, rfl⟩, rfl⟩
  · rename_i absent
    split at found <;> cases found
    exact .inr ⟨absent, ‹_›, rfl⟩

/-- A resolved attribute has the range that its range name, which may be the default one, stands for. -/
theorem resolveAttribute_eq_ok {resolver : RangeResolver} {owner : String} {attr : Attribute}
    {resolved : ResolvedAttribute} (success : resolver.resolveAttribute owner attr = .ok resolved) :
    resolved.attr = attr ∧
      ∃ name, resolver.rangeName? attr = some name ∧ resolver.lookup name attr.name = .ok resolved.range := by
  refine ⟨attr_of_resolveAttribute success, ?_⟩
  unfold resolveAttribute at success
  split at success
  · rename_i range found
    cases success
    unfold resolve at found
    split at found
    · exact ⟨_, ‹_›, found⟩
    · cases found
  · cases success

section Wider

variable {resolver wider : RangeResolver} (covers : whole.Covers part)
  (resolves : ofDocument part = .ok resolver) (resolvesWider : ofDocument whole = .ok wider)
include covers resolves resolvesWider

/-- What a name stands for is the same where more is defined. -/
theorem lookup_unique {name owner ownerWider : String} {range rangeWider : Range}
    (found : resolver.lookup name owner = .ok range)
    (foundWider : wider.lookup name ownerWider = .ok rangeWider) : rangeWider = range := by
  obtain ⟨registered, same, _⟩ := ofDocument_eq_ok resolves
  obtain ⟨registeredWider, sameWider, apart⟩ := ofDocument_eq_ok resolvesWider
  rcases lookup_eq_ok found with ⟨kind, knows, rfl⟩ | ⟨_, isClass, rfl⟩
  · have knowsWider := covers.knows registered registeredWider knows
    rcases lookup_eq_ok foundWider with ⟨other, knowsOther, rfl⟩ | ⟨absent, _, _⟩
    · rw [knowsWider.unique knowsOther]
    · obtain ⟨known, present, _⟩ := knowsWider
      exact absurd (absent.symm.trans present) nofun
  · -- A class of the document is a class of the wider one, so it is no type there.
    rw [same] at isClass
    have absent := apart name (covers.classes.has isClass)
    rcases lookup_eq_ok foundWider with ⟨other, ⟨known, registeredName, _⟩, _⟩ | ⟨_, _, rfl⟩
    · exact absurd (absent.symm.trans registeredName) nofun
    · rfl

variable (sameDefault : whole.defaultRange? = part.defaultRange?)
include sameDefault

/-- An attribute that is covered has the same range as the one that covers it. -/
theorem resolveAttribute_covers {attr attrWider : Attribute} (covering : attrWider.Covers attr)
    {owner ownerWider : String} {resolved resolvedWider : ResolvedAttribute}
    (success : resolver.resolveAttribute owner attr = .ok resolved)
    (successWider : wider.resolveAttribute ownerWider attrWider = .ok resolvedWider) :
    resolvedWider.attr.Covers resolved.attr ∧ resolvedWider.range = resolved.range := by
  obtain ⟨rfl, name, named, found⟩ := resolveAttribute_eq_ok success
  obtain ⟨rfl, nameWider, namedWider, foundWider⟩ := resolveAttribute_eq_ok successWider
  have sameName : wider.rangeName? resolvedWider.attr = resolver.rangeName? resolved.attr := by
    rw [rangeName?, rangeName?, covering.range, (ofDocument_eq_ok resolves).2.1,
      (ofDocument_eq_ok resolvesWider).2.1, sameDefault]
  obtain rfl := Option.some.inj (namedWider.symm.trans (sameName.trans named))
  exact ⟨covering, lookup_unique covers resolves resolvesWider found foundWider⟩

/-- The attributes of a class are resolved to the same ranges, one by one. -/
theorem resolveClass_covers {name : String} {resolved resolvedWider : List ResolvedAttribute}
    (success : resolver.resolveClass name = .ok resolved)
    (successWider : wider.resolveClass name = .ok resolvedWider) :
    List.Forall₂ (fun wider narrow => wider.attr.Covers narrow.attr ∧ wider.range = narrow.range)
      resolvedWider resolved := by
  obtain ⟨attributes, induced, each⟩ := resolveClass_eq_ok success
  obtain ⟨attributesWider, inducedWider, eachWider⟩ := resolveClass_eq_ok successWider
  rw [(ofDocument_eq_ok resolves).2.1] at induced
  rw [(ofDocument_eq_ok resolvesWider).2.1] at inducedWider
  have covering := covers.forall₂_inducedAttributes induced inducedWider
  clear success successWider induced inducedWider
  induction covering generalizing resolved resolvedWider with
  | nil =>
    cases each
    cases eachWider
    exact .nil
  | cons first _ ih =>
    cases each with
    | cons one rest =>
      cases eachWider with
      | cons oneWider restWider =>
        exact .cons (resolveAttribute_covers covers resolves resolvesWider sameDefault first one oneWider)
          (ih rest restWider)

end Wider

end RangeResolver

/-- The field without its description. -/
def Field.withoutDescription (field : Field) : Field :=
  { field with description? := none }

theorem Field.withoutDescription_ofAttribute {left right : ResolvedAttribute}
    (covering : left.attr.Covers right.attr) (sameRange : left.range = right.range) :
    (ofAttribute left).withoutDescription = (ofAttribute right).withoutDescription := by
  simp only [ofAttribute, withoutDescription, Attribute.isRequired, covering.name, covering.multivalued,
    covering.required, covering.identifier, sameRange]

theorem Field.map_withoutDescription_ofAttribute {lefts rights : List ResolvedAttribute}
    (each : List.Forall₂ (fun left right => left.attr.Covers right.attr ∧ left.range = right.range)
      lefts rights) :
    (lefts.map ofAttribute).map withoutDescription = (rights.map ofAttribute).map withoutDescription := by
  rw [List.map_map, List.map_map]
  exact map_eq_map_of_forall₂ (fun _ _ same => withoutDescription_ofAttribute same.1 same.2) each

/-- The classes of a document have the same fields, descriptions apart, in the object model of a document that
covers it and has the same default range. -/
theorem ObjectModel.fields_of_covers (covers : whole.Covers part)
    (sameDefault : whole.defaultRange? = part.defaultRange?) {model wider : ObjectModel}
    (modelled : ofDocument part = .ok model) (modelledWider : ofDocument whole = .ok wider) {name : String}
    {classModel : ClassModel} (found : model.class? name = some classModel) :
    ∃ known, wider.class? name = some known ∧
      known.fields.map Field.withoutDescription = classModel.fields.map Field.withoutDescription := by
  obtain ⟨resolver, resolves, classes⟩ := class?_of_ofDocument modelled
  obtain ⟨resolverWider, resolvesWider, classesWider⟩ := class?_of_ofDocument modelledWider
  have stored := classes name
  cases defined : part.classes.get? name with
  | none =>
    rw [defined] at stored
    exact absurd (stored.symm.trans found) nofun
  | some definition =>
    simp only [defined] at stored
    obtain ⟨resolved, success, stored⟩ := stored
    obtain ⟨known, present, _⟩ := covers.classes name definition defined
    have storedWider := classesWider name
    simp only [present] at storedWider
    obtain ⟨resolvedWider, successWider, storedWider⟩ := storedWider
    obtain rfl := Option.some.inj (stored.symm.trans found)
    refine ⟨_, storedWider, ?_⟩
    exact Field.map_withoutDescription_ofAttribute
      (RangeResolver.resolveClass_covers covers resolves resolvesWider sameDefault success successWider)

/-- The imports of a document change nothing that it says: the resolved document has its header and, at the
front of each table, its names in their order, and its classes have the same fields. -/
theorem Document.extends_and_fields_of_resolvesImports {document result : Document} {loader : ImportLoader}
    (success : document.ResolvesImports loader (.ok result)) :
    result.Extends document ∧
      ∀ model resolvedModel, ObjectModel.ofDocument document = .ok model →
        ObjectModel.ofDocument result = .ok resolvedModel →
        ∀ name classModel, model.class? name = some classModel →
          ∃ known, resolvedModel.class? name = some known ∧
            known.fields.map Field.withoutDescription = classModel.fields.map Field.withoutDescription := by
  have extended := extends_of_resolvesImports success
  refine ⟨extended, ?_⟩
  intro model resolvedModel modelled resolvedModelled name classModel found
  exact ObjectModel.fields_of_covers (covers_of_resolvesImports success) extended.defaultRange? modelled
    resolvedModelled found

/-- A document with one class, whose attribute has the default range. -/
def Document.counting : Document :=
  { blank with
    id := "root"
    name := "root"
    imports := ["types"]
    defaultRange? := some "integer"
    classes := [("Counter", ⟨"Counter", none, none, none, [⟨"count", "", false, true, false, none, none⟩]⟩)] }

/-- An import that declares the default range again, with a URI, and one more class. -/
def ImportSource.counting : ImportSource :=
  .ofTable [("types", "{id: t, name: t, types: {integer: {uri: ex:i}}, classes: {Place: }}")]

/-- The document with the import merged in. -/
def Document.countingResolved : Document :=
  { counting with
    resolvedImports := ["types"]
    types := [("integer", ⟨"integer", none, some "ex:i", none⟩)]
    classes := counting.classes ++ [("Place", ⟨"Place", none, none, none, []⟩)] }

/-- The field table of the class. -/
def ClassModel.counter : ClassModel :=
  ⟨"Counter", none, [⟨"count", .scalar .integer, false, true, false, none⟩]⟩

theorem Document.extends_and_fields_of_resolvesImports_counting :
    counting.ResolvesImports ImportSource.counting.load (.ok countingResolved) ∧
      countingResolved.Extends counting ∧
      ∃ resolvedModel, ObjectModel.ofDocument countingResolved = .ok resolvedModel ∧
        ∃ known, resolvedModel.class? "Counter" = some known ∧
          known.fields.map Field.withoutDescription = ClassModel.counter.fields := by
  have ends : Resolution.runWithin ImportSource.counting.load 2 (Resolution.start counting) =
      some (.ok countingResolved) := by
    decide +kernel
  have success := Resolution.ends_of_runWithin ends
  have modelled : ObjectModel.ofDocument counting = .ok ⟨"root", [("Counter", .counter)]⟩ := by decide +kernel
  have resolvedModelled : ObjectModel.ofDocument countingResolved =
      .ok ⟨"root", [("Counter", .counter), ("Place", ⟨"Place", none, []⟩)]⟩ := by
    decide +kernel
  obtain ⟨extended, fields⟩ := extends_and_fields_of_resolvesImports success
  exact ⟨success, extended, _, resolvedModelled, fields _ _ modelled resolvedModelled "Counter" .counter rfl⟩

end ClassSchema
