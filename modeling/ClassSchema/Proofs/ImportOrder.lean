import Mathlib.Data.List.Pairwise
import ClassSchema.Proofs.ResolutionRuns

/-! # The order of imports

Where every schema id stands for one schema, the imports of a document are loaded in another order when
they are declared in another order, but they are the same imports. The resolved document is the least that
covers the document and all of them, and there is one exactly if some document covers them all. So the
order of the imports changes neither whether they resolve nor what the result says, descriptions apart.
-/

namespace ClassSchema

/-- Whether import identifiers that bring the same schema id bring the same schema. -/
def ImportLoader.IsConsistent (loader : ImportLoader) : Prop :=
  ∀ left right first second, loader.document left = .ok first → loader.document right = .ok second →
    first.id = second.id → first = second

/-- A source is consistent if no two different schemas among its texts have the same id. -/
theorem ImportSource.isConsistent_load (source : ImportSource)
    (distinct : (source.texts.filterMap fun text => (Document.parse text).toOption).Pairwise
      fun first second => first.id = second.id → first = second) :
    source.load.IsConsistent := by
  have held {identifier : String} {found : Document} (loaded : source.load.document identifier = .ok found) :
      found ∈ source.texts.filterMap fun text => (Document.parse text).toOption := by
    obtain ⟨text, given, parsed⟩ := ImportLoader.document_eq_ok_iff.mp loaded
    refine List.mem_filterMap.mpr ⟨text, source.mem_texts _ _ given, ?_⟩
    rw [parsed]
    rfl
  intro left right first second loadedLeft loadedRight
  have : Std.Symm fun first second : Document => first.id = second.id → first = second :=
    ⟨fun _ _ same sameId => (same sameId.symm).symm⟩
  exact distinct.forall_of_forall (fun _ _ _ => rfl) (held loadedLeft) (held loadedRight)

/-- The type without its description. -/
def TypeDefinition.withoutDescription (type : TypeDefinition) : TypeDefinition :=
  { type with description? := none }

/-- The attribute without its description. -/
def Attribute.withoutDescription (attr : Attribute) : Attribute :=
  { attr with description? := none }

/-- The class without its description and those of its attributes. -/
def ClassDefinition.withoutDescriptions (definition : ClassDefinition) : ClassDefinition :=
  { definition with
    description? := none
    attributes := definition.attributes.map Attribute.withoutDescription }

/-- Whether two documents define the same names alike, descriptions and the order of names apart. -/
structure Document.SameDefinitions (left right : Document) : Prop where
  prefixes : ∀ name, left.prefixes.get? name = right.prefixes.get? name
  types : ∀ name, (left.types.get? name).map TypeDefinition.withoutDescription =
    (right.types.get? name).map TypeDefinition.withoutDescription
  classes : ∀ name, (left.classes.get? name).map ClassDefinition.withoutDescriptions =
    (right.classes.get? name).map ClassDefinition.withoutDescriptions

theorem CoversUri.antisymm {left right : Option String} (covering : CoversUri left right)
    (under : CoversUri right left) : left = right := by
  cases right with
  | some uri => exact covering uri rfl
  | none =>
    cases left with
    | none => rfl
    | some uri => exact (under uri rfl).symm

theorem TypeDefinition.Covers.antisymm {left right : TypeDefinition} (covering : left.Covers right)
    (under : right.Covers left) (sameName : left.name = right.name) :
    left.withoutDescription = right.withoutDescription := by
  simp only [TypeDefinition.withoutDescription, sameName, covering.typeof?, covering.uri?.antisymm under.uri?]

theorem Attribute.Covers.antisymm {left right : Attribute} (covering : left.Covers right)
    (under : right.Covers left) : left.withoutDescription = right.withoutDescription := by
  simp only [Attribute.withoutDescription, covering.name, covering.range, covering.multivalued,
    covering.required, covering.identifier, covering.slotUri?.antisymm under.slotUri?]

theorem map_withoutDescription_eq {left right : List Attribute}
    (covering : List.Forall₂ Attribute.Covers left right) (under : List.Forall₂ Attribute.Covers right left) :
    left.map Attribute.withoutDescription = right.map Attribute.withoutDescription := by
  induction covering with
  | nil => rfl
  | cons first _ ih =>
    cases under with
    | cons back others => rw [List.map_cons, List.map_cons, first.antisymm back, ih others]

theorem ClassDefinition.Covers.antisymm {left right : ClassDefinition} (covering : left.Covers right)
    (under : right.Covers left) (sameName : left.name = right.name) :
    left.withoutDescriptions = right.withoutDescriptions := by
  simp only [ClassDefinition.withoutDescriptions, sameName, covering.parent?, covering.uri?.antisymm under.uri?,
    map_withoutDescription_eq covering.attributes under.attributes]

/-- Tables that cover each other store the same under each name, as far as covering tells. -/
theorem Table.Covers.get?_map_eq {α β : Type} {covers : α → α → Prop} {left right : Table α}
    (covering : left.Covers covers right) (under : right.Covers covers left) (name : String) {forget : α → β}
    (same : ∀ first second, left.get? name = some first → right.get? name = some second →
      covers first second → covers second first → forget first = forget second) :
    (left.get? name).map forget = (right.get? name).map forget := by
  cases inLeft : left.get? name with
  | none =>
    cases inRight : right.get? name with
    | none => rfl
    | some second =>
      obtain ⟨first, present, _⟩ := covering name second inRight
      rw [inLeft] at present
      cases present
  | some first =>
    obtain ⟨second, inRight, above⟩ := under name first inLeft
    have below := covering.of_get? inLeft inRight
    rw [inRight, Option.map_some, Option.map_some, same _ _ inLeft inRight below above]

/-- Documents that cover each other define the same names alike. -/
theorem Document.Covers.sameDefinitions {left right : Document} (covering : left.Covers right)
    (under : right.Covers left) (leftNamed : left.IsNamed) (rightNamed : right.IsNamed) :
    left.SameDefinitions right where
  prefixes name := by
    have same : (left.prefixes.get? name).map (fun uri => uri) =
        (right.prefixes.get? name).map fun uri => uri :=
      covering.prefixes.get?_map_eq under.prefixes name fun _ _ _ _ above _ => above
    simpa only [Option.map_id'] using same
  types name := by
    refine covering.types.get?_map_eq under.types name ?_
    intro first second inLeft inRight above below
    exact above.antisymm below
      ((leftNamed.types.named name first inLeft).trans (rightNamed.types.named name second inRight).symm)
  classes name := by
    refine covering.classes.get?_map_eq under.classes name ?_
    intro first second inLeft inRight above below
    exact above.antisymm below
      ((leftNamed.classes.named name first inLeft).trans (rightNamed.classes.named name second inRight).symm)

namespace Document.ResolvesTo

variable {document result bound : Document} {loader : ImportLoader}

/-- Every recorded import that is not the document's own schema is covered. -/
theorem covers (resolves : document.ResolvesTo loader result) (consistent : loader.IsConsistent)
    {identifier : String} {found : Document} (resolved : identifier ∈ result.resolvedImports)
    (loaded : loader.document identifier = .ok found) (foreign : found.id ≠ document.id) :
    result.Covers found ∧ ∀ other ∈ found.imports, other ∈ result.resolvedImports := by
  obtain ⟨first, contributed, contributes, same⟩ := Contributes.exists_of_mem resolved loaded foreign
  obtain rfl := consistent first identifier contributed found contributes.loaded loaded same
  exact ⟨resolves.contributions first contributed contributes, resolves.closed first contributed contributes⟩

/-- The recorded imports are those of the document. -/
theorem mem_resolvedImports_iff (resolves : document.ResolvesTo loader result)
    (consistent : loader.IsConsistent) (identifier : String) :
    identifier ∈ result.resolvedImports ↔ document.Imports loader identifier := by
  refine ⟨resolves.imports identifier, ?_⟩
  intro isImport
  induction isImport with
  | declared declares => exact resolves.declared _ declares
  | through _ loaded foreign declares ih =>
    exact (resolves.covers consistent ih loaded foreign).2 _ declares

/-- The resolved document is the least that covers the document and all its imports. -/
theorem covers_iff (resolves : document.ResolvesTo loader result) (consistent : loader.IsConsistent)
    (above : result.Covers document) :
    bound.Covers result ↔ bound.Covers document ∧ ∀ identifier found, document.Imports loader identifier →
      loader.document identifier = .ok found → found.id ≠ document.id → bound.Covers found := by
  constructor
  · intro covering
    refine ⟨covering.trans above, ?_⟩
    intro identifier found isImport loaded foreign
    have resolved := (resolves.mem_resolvedImports_iff consistent identifier).mpr isImport
    exact covering.trans (resolves.covers consistent resolved loaded foreign).1
  · rintro ⟨overDocument, overImports⟩
    refine resolves.least bound overDocument ?_
    intro identifier found contributes
    exact overImports identifier found (resolves.imports identifier contributes.mem) contributes.loaded
      contributes.foreign

end Document.ResolvesTo

section Reordered

variable {document : Document} {imports : List String} {loader : ImportLoader}

/-- The document with its imports declared in another order. -/
def Document.withImports (document : Document) (imports : List String) : Document :=
  { document with imports := imports }

theorem Document.imports_of_perm (permuted : document.imports.Perm imports) {identifier : String}
    (isImport : document.Imports loader identifier) :
    (document.withImports imports).Imports loader identifier := by
  induction isImport with
  | declared declares => exact .declared (permuted.mem_iff.mp declares)
  | through _ loaded foreign declares ih => exact .through ih loaded foreign declares

theorem Document.withImports_imports_iff (permuted : document.imports.Perm imports) (identifier : String) :
    (document.withImports imports).Imports loader identifier ↔ document.Imports loader identifier := by
  refine ⟨?_, imports_of_perm permuted⟩
  intro isImport
  have back : (document.withImports imports).imports.Perm document.imports := permuted.symm
  exact imports_of_perm back isImport

/-- A document resolves if another one does that imports the same and says the same. -/
theorem Document.exists_resolvesImports_of_imports_iff {other result : Document}
    (unresolved : document.resolvedImports = []) (otherUnresolved : other.resolvedImports = [])
    (sameId : other.id = document.id) (below : document.Covers other)
    (sameImports : ∀ identifier, other.Imports loader identifier ↔ document.Imports loader identifier)
    (consistent : loader.IsConsistent) (success : document.ResolvesImports loader (.ok result)) :
    ∃ otherResult, other.ResolvesImports loader (.ok otherResult) := by
  have resolves := resolvesTo_of_resolvesImports unresolved success
  have above := covers_of_resolvesImports success
  have reached (identifier : String) (isImport : other.Imports loader identifier) :
      identifier ∈ result.resolvedImports :=
    (resolves.mem_resolvedImports_iff consistent identifier).mpr ((sameImports identifier).mp isImport)
  refine Resolution.exists_ends reached (above.trans below) ?_ _ (Resolution.tracks_start otherUnresolved)
    (Resolution.gathers_start otherUnresolved)
  intro identifier isImport
  obtain ⟨found, loaded⟩ := resolves.loads identifier (reached identifier isImport)
  refine ⟨found, loaded, ?_⟩
  intro foreign
  rw [sameId] at foreign
  exact (resolves.covers consistent (reached identifier isImport) loaded foreign).1

/-- Documents that import the same and cover each other resolve to the same definitions. -/
theorem Document.sameDefinitions_of_imports_iff {other result otherResult : Document}
    (named : document.IsNamed) (otherNamed : other.IsNamed)
    (unresolved : document.resolvedImports = []) (otherUnresolved : other.resolvedImports = [])
    (sameId : other.id = document.id) (below : document.Covers other) (above : other.Covers document)
    (sameImports : ∀ identifier, other.Imports loader identifier ↔ document.Imports loader identifier)
    (consistent : loader.IsConsistent) (success : document.ResolvesImports loader (.ok result))
    (otherSuccess : other.ResolvesImports loader (.ok otherResult)) :
    (∀ identifier, identifier ∈ result.resolvedImports ↔ identifier ∈ otherResult.resolvedImports) ∧
      result.SameDefinitions otherResult := by
  have resolves := resolvesTo_of_resolvesImports unresolved success
  have otherResolves := resolvesTo_of_resolvesImports otherUnresolved otherSuccess
  have covers := covers_of_resolvesImports success
  have otherCovers := covers_of_resolvesImports otherSuccess
  -- Each result covers what the other one is the least cover of.
  have least (bound : Document) : bound.Covers otherResult ↔ bound.Covers result := by
    rw [resolves.covers_iff consistent covers, otherResolves.covers_iff consistent otherCovers, sameId]
    simp only [sameImports]
    exact and_congr_left fun _ => ⟨fun covering => covering.trans above, fun covering => covering.trans below⟩
  constructor
  · intro identifier
    rw [resolves.mem_resolvedImports_iff consistent, otherResolves.mem_resolvedImports_iff consistent,
      sameImports]
  · have covering : result.Covers otherResult := (least result).mpr (Covers.refl result)
    have under : otherResult.Covers result := (least otherResult).mp (Covers.refl otherResult)
    exact covering.sameDefinitions under (named.resolvesImports success)
      (otherNamed.resolvesImports otherSuccess)

/-- The order in which a document declares its imports decides neither whether they resolve nor which
identifiers are resolved nor what is defined. -/
theorem Document.resolvesImports_of_imports_perm {text : String} (parsed : parse text = .ok document)
    (permuted : document.imports.Perm imports) (consistent : loader.IsConsistent) :
    ((∃ result, document.ResolvesImports loader (.ok result)) ↔
      ∃ result, (document.withImports imports).ResolvesImports loader (.ok result)) ∧
    ∀ result reordered, document.ResolvesImports loader (.ok result) →
      (document.withImports imports).ResolvesImports loader (.ok reordered) →
      (∀ identifier, identifier ∈ result.resolvedImports ↔ identifier ∈ reordered.resolvedImports) ∧
        result.SameDefinitions reordered := by
  obtain ⟨unresolved, named⟩ := isNamed_of_parse parsed
  have sameImports (identifier : String) :
      (document.withImports imports).Imports loader identifier ↔ document.Imports loader identifier :=
    withImports_imports_iff permuted identifier
  have below : document.Covers (document.withImports imports) := { Covers.refl document with }
  have above : (document.withImports imports).Covers document := { Covers.refl document with }
  have renamed : (document.withImports imports).IsNamed := { named with }
  have renamedUnresolved : (document.withImports imports).resolvedImports = [] := unresolved
  constructor
  · constructor
    · rintro ⟨result, success⟩
      exact exists_resolvesImports_of_imports_iff unresolved renamedUnresolved rfl below sameImports consistent
        success
    · rintro ⟨result, success⟩
      exact exists_resolvesImports_of_imports_iff renamedUnresolved unresolved rfl above
        (fun identifier => (sameImports identifier).symm) consistent success
  · intro result reordered success reorderedSuccess
    exact sameDefinitions_of_imports_iff named renamed unresolved renamedUnresolved rfl below above sameImports
      consistent success reorderedSuccess

end Reordered

/-- A schema that imports two others. -/
def Document.sharingText : String :=
  "{id: root, name: root, imports: [people, places]}"

/-- The two schemas; they import each other and declare the same class, where each gives a URI that the
other one leaves open. -/
def ImportSource.sharing : ImportSource :=
  .ofTable
    [("people", "{id: p, name: p, imports: [places], classes: {Place: {class_uri: ex:P, attributes: {x: }}}}"),
     ("places", "{id: q, name: q, imports: [people], classes: {Place: {attributes: {x: {slot_uri: ex:x}}}}}")]

/-- The document of the first schema. -/
def Document.sharing : Document :=
  { blank with id := "root", name := "root", imports := ["people", "places"] }

/-- The class with both URIs. -/
def ClassDefinition.sharedPlace : ClassDefinition where
  name := "Place"
  description? := none
  parent? := none
  uri? := some "ex:P"
  attributes := [⟨"x", "", false, false, false, some "ex:x", none⟩]

theorem Document.resolvesImports_of_imports_perm_sharing :
    parse sharingText = .ok sharing ∧ sharing.imports.Perm ["places", "people"] ∧
      ImportSource.sharing.load.IsConsistent ∧
      ∃ result reordered, sharing.ResolvesImports ImportSource.sharing.load (.ok result) ∧
        (sharing.withImports ["places", "people"]).ResolvesImports ImportSource.sharing.load (.ok reordered) ∧
        result.SameDefinitions reordered ∧
        result.classes.get? "Place" = some .sharedPlace := by
  have parsed : parse sharingText = .ok sharing := by decide +kernel
  have permuted : sharing.imports.Perm ["places", "people"] := by decide
  have consistent : ImportSource.sharing.load.IsConsistent :=
    ImportSource.isConsistent_load _ (by decide +kernel)
  have ends : Resolution.runWithin ImportSource.sharing.load 5 (Resolution.start sharing) = some (.ok
      { sharing with
        resolvedImports := ["people", "places"]
        classes := [("Place", .sharedPlace)] }) := by
    decide +kernel
  have success := Resolution.ends_of_runWithin ends
  obtain ⟨resolvable, same⟩ := resolvesImports_of_imports_perm parsed permuted consistent
  obtain ⟨reordered, reorderedSuccess⟩ := resolvable.mp ⟨_, success⟩
  exact ⟨parsed, permuted, consistent, _, reordered, success, reorderedSuccess,
    (same _ reordered success reorderedSuccess).2, rfl⟩

end ClassSchema
