import ClassSchema.Proofs.WellFormedness

/-! # Registries of types

A registry is what the chains of parents say: it knows a name with a kind exactly if the chain from this name on
ends in that kind. So it has the built-in types with their own kinds, a declared type has the kind of its parent,
and the order in which the types are declared does not matter, neither to whether there is a registry nor to the
kinds in it.
-/

namespace ClassSchema

namespace TypeRegistry

variable {document : Document} {registry : TypeRegistry}

/-- The kind that a registry has for a name. -/
def kind? (registry : TypeRegistry) (name : String) : Option ScalarKind :=
  (registry.get? name).map RegisteredType.kind

theorem kind?_eq_some_iff {name : String} {kind : ScalarKind} :
    registry.kind? name = some kind ↔ registry.Knows name kind :=
  Option.map_eq_some_iff

/-- A registry knows exactly the names from which chains end, each with the kind at the end. -/
theorem knows_iff_chainEnds (registered : ofDocument document = .ok registry) {name : String} {kind : ScalarKind} :
    registry.Knows name kind ↔ document.ChainEnds name kind := by
  constructor
  · exact chainEnds_of_knows registered
  · intro ends
    have registers := registers_of_ofDocument registered
    by_cases declared : name ∈ document.types.keys
    · obtain ⟨other, endsAgain, knows⟩ := registers.adds name declared
      exact ends.unique endsAgain ▸ knows
    · -- A chain does not go on from a name that is not declared, so this name is built in.
      have stays : document.typeParent? name = none := by
        rw [← Table.get?_eq_none_iff] at declared
        rw [Document.typeParent?, declared, Option.bind_none]
      cases ends with
      | builtin _ known => exact registers.keeps (builtins_knows_iff.mpr known)
      | parent derives _ =>
        rw [stays] at derives
        cases derives

/-- A type is stored under its name, at the end if the name is new. -/
theorem keys_register {next : TypeRegistry} {name : String} {definition : TypeDefinition}
    (success : register document registry name definition = .ok next) :
    next.keys = if registry.has name then registry.keys else registry.keys ++ [name] := by
  obtain ⟨kind, _, success⟩ := bind_eq_ok_iff.mp success
  split at success
  · cases success
    exact Table.keys_set registry name _
  · split at success <;> cases success
    exact Table.keys_set registry name _

theorem keys_registerAll {result : TypeRegistry} {entries : List (String × TypeDefinition)}
    (distinct : (Table.keys entries).Nodup) (success : registerAll document registry entries = .ok result) :
    result.keys = registry.keys ++ (Table.keys entries).filter (· ∉ registry.keys) := by
  induction entries generalizing registry with
  | nil =>
    cases success
    exact (List.append_nil _).symm
  | cons entry rest ih =>
    obtain ⟨name, definition⟩ := entry
    obtain ⟨next, registered, success⟩ := bind_eq_ok_iff.mp success
    obtain ⟨isNew, distinct⟩ := List.nodup_cons.mp distinct
    have later : (Table.keys rest).filter (· ∉ next.keys) = (Table.keys rest).filter (· ∉ registry.keys) := by
      apply List.filter_congr
      intro other member
      have differ : other ≠ name := fun same => isNew (same ▸ member)
      rw [keys_register registered]
      split <;> simp [differ]
    have names : Table.keys ((name, definition) :: rest) = name :: Table.keys rest := rfl
    rw [ih distinct success, later, keys_register registered, names]
    by_cases present : registry.has name = true
    · have known := (Table.has_iff_mem_keys registry name).mp present
      simp [present, known]
    · have unknown := mt (Table.has_iff_mem_keys registry name).mpr present
      simp [present, unknown]

theorem keys_builtins : builtins.keys = builtinTypes.map Prod.fst := rfl

end TypeRegistry

namespace Document

variable {document other : Document}

/-- Chains do not depend on the order in which types are declared. -/
theorem typeParent?_of_perm (distinct : document.types.keys.Nodup) (perm : other.types.Perm document.types) :
    other.typeParent? = document.typeParent? := by
  funext name
  rw [typeParent?, typeParent?, Table.get?_of_perm perm.symm distinct]

theorem chainEnds_of_typeParent? (same : other.typeParent? = document.typeParent?) {name : String}
    {kind : ScalarKind} : other.ChainEnds name kind ↔ document.ChainEnds name kind := by
  rw [chainEnds_iff, chainEnds_iff, same]

end Document

namespace TypeRegistry

variable {document other : Document}

/-- There is a registry for types that are declared in another order if there is one for them. -/
theorem exists_ofDocument_of_perm (distinct : document.types.keys.Nodup)
    (perm : other.types.Perm document.types) :
    (∃ registry, ofDocument other = .ok registry) ↔ ∃ registry, ofDocument document = .ok registry := by
  have sameNames (name : String) : name ∈ other.types.keys ↔ name ∈ document.types.keys :=
    (perm.map Prod.fst).mem_iff
  simp only [exists_ofDocument_iff, Document.typeParent?_of_perm distinct perm, sameNames]

/-- It has the same kinds. -/
theorem kind?_of_perm (distinct : document.types.keys.Nodup) (perm : other.types.Perm document.types)
    {registry reordered : TypeRegistry} (registered : ofDocument document = .ok registry)
    (registeredAgain : ofDocument other = .ok reordered) : reordered.kind? = registry.kind? := by
  funext name
  apply Option.ext
  intro kind
  rw [kind?_eq_some_iff, kind?_eq_some_iff, knows_iff_chainEnds registered, knows_iff_chainEnds registeredAgain,
    Document.chainEnds_of_typeParent? (Document.typeParent?_of_perm distinct perm)]

/-- A declared type has the kind of its parent. -/
theorem kind?_of_typeParent? {registry : TypeRegistry} (registered : ofDocument document = .ok registry)
    {name parent : String} (derives : document.typeParent? name = some parent) :
    ∃ kind, registry.kind? name = some kind ∧ registry.kind? parent = some kind := by
  have declared := Document.mem_keys_of_typeParent? (Option.isSome_of_eq_some derives)
  obtain ⟨kind, ends, knows⟩ := (registers_of_ofDocument registered).adds name declared
  refine ⟨kind, kind?_eq_some_iff.mpr knows, ?_⟩
  rw [kind?_eq_some_iff, knows_iff_chainEnds registered]
  cases ends with
  | builtin stays _ => exact absurd (stays.symm.trans derives) nofun
  | parent derivesAgain rest =>
    obtain rfl := Option.some.inj (derives.symm.trans derivesAgain)
    exact rest

/-- The types of a document have a registry exactly if the chain of each declared one ends, without repetition, in
a built-in type, for one that is named like a built-in type in one of the same kind. The registry has the built-in
types and then the other declared ones, each once, the built-in ones with their kinds and the declared ones with
those of their parents. For the same types in another order there is a registry too, or none, and it has the same
kinds. -/
theorem ofDocument_follows_chains (produced : document.IsProduced) :
    ((∃ registry, ofDocument document = .ok registry) ↔
      ∀ name ∈ document.types.keys, ∃ passed last kind,
        ChainTo document.typeParent? name passed last ∧ (passed ++ [last]).Nodup ∧
          builtinKind? last = some kind ∧ ∀ builtin, builtinKind? name = some builtin → builtin = kind) ∧
    (∀ registry, ofDocument document = .ok registry →
      registry.keys = builtinTypes.map Prod.fst ++ document.types.keys.filter (· ∉ builtinTypes.map Prod.fst) ∧
      registry.keys.Nodup ∧
      (∀ name kind, builtinKind? name = some kind → registry.kind? name = some kind) ∧
      ∀ name parent, document.typeParent? name = some parent →
        ∃ kind, registry.kind? name = some kind ∧ registry.kind? parent = some kind) ∧
    ∀ other : Document, other.types.Perm document.types →
      ((∃ registry, ofDocument other = .ok registry) ↔ ∃ registry, ofDocument document = .ok registry) ∧
      ∀ registry reordered, ofDocument document = .ok registry → ofDocument other = .ok reordered →
        reordered.kind? = registry.kind? := by
  have distinct := produced.isNamed.types.distinct
  refine ⟨exists_ofDocument_iff, ?_, ?_⟩
  · intro registry registered
    have names := keys_registerAll distinct registered
    rw [keys_builtins] at names
    refine ⟨names, ?_, ?_, fun name parent => kind?_of_typeParent? registered⟩
    · rw [names, List.nodup_append]
      refine ⟨by decide, distinct.filter _, ?_⟩
      rintro name isBuiltin other declared rfl
      simpa [isBuiltin] using (List.mem_filter.mp declared).2
    · intro name kind isBuiltin
      have known := builtins_knows_iff.mpr isBuiltin
      exact kind?_eq_some_iff.mpr ((registers_of_ofDocument registered).keeps known)
  · intro other perm
    exact ⟨exists_ofDocument_of_perm distinct perm, fun registry reordered => kind?_of_perm distinct perm⟩

end TypeRegistry

/-- A schema with types that are declared before their parents, and with a built-in type that is declared again. -/
def Document.calendarText : String :=
  "{id: c, name: c, types: {year: {typeof: count}, count: {typeof: integer}, integer: {uri: x:i}}}"

/-- The document of that schema. -/
def Document.calendar : Document :=
  { blank with
    id := "c"
    name := "c"
    types :=
      [("year", ⟨"year", some "count", none, none⟩), ("count", ⟨"count", some "integer", none, none⟩),
       ("integer", ⟨"integer", none, some "x:i", none⟩)] }

theorem TypeRegistry.ofDocument_follows_chains_calendar :
    Document.parse Document.calendarText = .ok .calendar ∧ ∃ registry reordered,
      ofDocument .calendar = .ok registry ∧ registry.keys = builtinTypes.map Prod.fst ++ ["year", "count"] ∧
        registry.kind? "year" = registry.kind? "integer" ∧ registry.kind? "integer" = some .integer ∧
        ofDocument { Document.calendar with types := Document.calendar.types.reverse } = .ok reordered ∧
        reordered.kind? = registry.kind? := by
  have parsed : Document.parse Document.calendarText = .ok .calendar := by decide +kernel
  obtain ⟨_, each, anyOrder⟩ := ofDocument_follows_chains (.parsed parsed)
  obtain ⟨registry, registered⟩ : ∃ registry, ofDocument .calendar = .ok registry :=
    exists_eq_ok_of_isOk (by decide +kernel)
  obtain ⟨names, _, builtin, derived⟩ := each registry registered
  obtain ⟨exists_iff, sameKinds⟩ :=
    anyOrder { Document.calendar with types := Document.calendar.types.reverse } (List.reverse_perm _)
  obtain ⟨reordered, registeredAgain⟩ := exists_iff.mpr ⟨registry, registered⟩
  have isInteger := builtin "integer" .integer (by decide)
  obtain ⟨kind, ofYear, ofCount⟩ := derived "year" "count" rfl
  obtain ⟨_, ofCountAgain, ofInteger⟩ := derived "count" "integer" rfl
  have same : registry.kind? "year" = registry.kind? "integer" :=
    ofYear.trans (ofCount.symm.trans (ofCountAgain.trans ofInteger.symm))
  exact ⟨parsed, registry, reordered, registered, names, same, isInteger, registeredAgain,
    sameKinds registry reordered registered registeredAgain⟩

end ClassSchema
