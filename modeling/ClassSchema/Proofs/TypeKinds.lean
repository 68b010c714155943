import ClassSchema.Proofs.DocumentNames
import ClassSchema.Range.Resolver

/-! # Kinds of types

The kind of a type is the built-in one at the end of its chain of parents. A registry has every built-in
type with its kind and every declared type with the kind of its chain, so a document that declares a
built-in type has a chain there which ends in the same kind.
-/

namespace ClassSchema

/-- Whether the chain of parents from a type name on ends in a built-in type of a kind. -/
inductive Document.ChainEnds (document : Document) : String → ScalarKind → Prop
  | builtin {name : String} {kind : ScalarKind} (ends : document.typeParent? name = none)
      (known : builtinKind? name = some kind) : ChainEnds document name kind
  | parent {name parent : String} {kind : ScalarKind} (derives : document.typeParent? name = some parent)
      (rest : ChainEnds document parent kind) : ChainEnds document name kind

theorem Document.ChainEnds.unique {document : Document} {name : String} {kind other : ScalarKind}
    (left : document.ChainEnds name kind) (right : document.ChainEnds name other) : kind = other := by
  induction left with
  | builtin ends known =>
    cases right with
    | builtin _ knownAgain => exact Option.some.inj (known.symm.trans knownAgain)
    | parent derives _ => exact absurd (ends.symm.trans derives) nofun
  | parent derives _ ih =>
    cases right with
    | builtin ends _ => exact absurd (ends.symm.trans derives) nofun
    | parent derivesAgain rest =>
      obtain rfl := Option.some.inj (derives.symm.trans derivesAgain)
      exact ih rest

namespace TypeRegistry

variable {document : Document}

theorem chainEnds_of_chainKind {start current : String} {fuel : Nat} {seen : List String} {kind : ScalarKind}
    (success : chainKind document start fuel seen current = .ok kind) : document.ChainEnds current kind := by
  fun_induction chainKind document start fuel seen current with
  | case1 => cases success
  | case2 fuel seen current _ ends known builtin =>
    cases success
    exact .builtin ends builtin
  | case3 => cases success
  | case4 seen current _ parent fuel derives ih => exact .parent derives (ih success)
  | case5 => cases success

/-- Whether a registry knows a name with a kind. -/
def Knows (registry : TypeRegistry) (name : String) (kind : ScalarKind) : Prop :=
  ∃ known, registry.get? name = some known ∧ known.kind = kind

theorem Knows.unique {registry : TypeRegistry} {name : String} {kind other : ScalarKind}
    (left : registry.Knows name kind) (right : registry.Knows name other) : kind = other := by
  obtain ⟨known, found, rfl⟩ := left
  obtain ⟨_, foundAgain, rfl⟩ := right
  obtain rfl := Option.some.inj (found.symm.trans foundAgain)
  rfl

/-- Whether one registry comes from another by registering names, each with the kind of its chain. -/
structure Registers (document : Document) (before : TypeRegistry) (names : List String)
    (after : TypeRegistry) : Prop where
  keeps : ∀ {name kind}, before.Knows name kind → after.Knows name kind
  adds : ∀ name ∈ names, ∃ kind, document.ChainEnds name kind ∧ after.Knows name kind
  only : ∀ {name kind}, after.Knows name kind → before.Knows name kind ∨ name ∈ names

/-- A type is registered with the kind of its chain, which is the one that its name already had if any. -/
theorem registers_of_register {registry next : TypeRegistry} {name : String} {definition : TypeDefinition}
    (success : register document registry name definition = .ok next) :
    Registers document registry [name] next := by
  obtain ⟨kind, chain, success⟩ := bind_eq_ok_iff.mp success
  obtain ⟨uri?, rfl, same⟩ : ∃ uri?, next = registry.set name ⟨kind, uri?⟩ ∧
      ∀ known, registry.get? name = some known → known.kind = kind := by
    split at success
    · rename_i absent
      cases success
      exact ⟨_, rfl, by simp [absent]⟩
    · rename_i known present
      split at success <;> cases success
      refine ⟨_, rfl, ?_⟩
      rintro other found
      obtain rfl := Option.some.inj (present.symm.trans found)
      exact Decidable.not_not.mp ‹_›
  constructor
  · rintro other _ ⟨known, found, rfl⟩
    by_cases here : name = other
    · subst here
      exact ⟨⟨kind, uri?⟩, by rw [Table.get?_set, if_pos rfl], (same known found).symm⟩
    · exact ⟨known, by rw [Table.get?_set, if_neg here, found], rfl⟩
  · intro other isName
    rw [List.mem_singleton.mp isName]
    exact ⟨kind, chainEnds_of_chainKind chain, ⟨kind, uri?⟩, by rw [Table.get?_set, if_pos rfl], rfl⟩
  · rintro other _ ⟨known, found, rfl⟩
    rw [Table.get?_set] at found
    by_cases here : name = other
    · exact .inr (List.mem_singleton.mpr here.symm)
    · rw [if_neg here] at found
      exact .inl ⟨known, found, rfl⟩

theorem Registers.refl (document : Document) (registry : TypeRegistry) :
    Registers document registry [] registry :=
  ⟨id, by simp, .inl⟩

theorem Registers.trans {before middle after : TypeRegistry} {names others : List String}
    (first : Registers document before names middle) (second : Registers document middle others after) :
    Registers document before (names ++ others) after where
  keeps known := second.keeps (first.keeps known)
  adds name member := by
    rcases List.mem_append.mp member with early | late
    · obtain ⟨kind, ends, known⟩ := first.adds name early
      exact ⟨kind, ends, second.keeps known⟩
    · exact second.adds name late
  only known := by
    rw [List.mem_append, ← or_assoc]
    exact (second.only known).imp_left first.only

theorem registers_of_registerAll {registry result : TypeRegistry}
    {entries : List (String × TypeDefinition)}
    (success : registerAll document registry entries = .ok result) :
    Registers document registry (Table.keys entries) result := by
  induction entries generalizing registry with
  | nil =>
    cases success
    exact .refl document _
  | cons entry rest ih =>
    obtain ⟨next, registered, success⟩ := bind_eq_ok_iff.mp success
    exact (registers_of_register registered).trans (ih success)

theorem get?_builtins (name : String) :
    builtins.get? name = (builtinKind? name).map fun kind => ⟨kind, none⟩ := by
  rw [builtinKind?, ← Table.get?_eq_lookup]
  exact Table.get?_map (fun kind => RegisteredType.mk kind none) builtinTypes name

theorem builtins_knows_iff {name : String} {kind : ScalarKind} :
    builtins.Knows name kind ↔ builtinKind? name = some kind := by
  simp only [Knows, get?_builtins, Option.map_eq_some_iff]
  constructor
  · rintro ⟨_, ⟨_, known, rfl⟩, rfl⟩
    exact known
  · intro known
    exact ⟨⟨kind, none⟩, ⟨kind, known, rfl⟩, rfl⟩

/-- The registry of a document adds the declared types to the built-in ones. -/
theorem registers_of_ofDocument {registry : TypeRegistry} (success : ofDocument document = .ok registry) :
    Registers document builtins document.types.keys registry :=
  registers_of_registerAll success

end TypeRegistry

/-- Where a document has a registry, the chain from a built-in type ends in its kind, declared or not. -/
theorem Document.chainEnds_of_builtinKind? {document : Document} {registry : TypeRegistry}
    (success : TypeRegistry.ofDocument document = .ok registry) {name : String} {kind : ScalarKind}
    (known : builtinKind? name = some kind) : document.ChainEnds name kind := by
  have registers := TypeRegistry.registers_of_ofDocument success
  by_cases declared : name ∈ document.types.keys
  · obtain ⟨other, ends, knows⟩ := registers.adds name declared
    have same := knows.unique (registers.keeps (TypeRegistry.builtins_knows_iff.mpr known))
    exact same ▸ ends
  · rw [← Table.get?_eq_none_iff] at declared
    exact .builtin (by rw [typeParent?, declared]; rfl) known

/-- The registry of a document knows the names at which chains end, each with the kind there. -/
theorem TypeRegistry.chainEnds_of_knows {document : Document} {registry : TypeRegistry}
    (success : ofDocument document = .ok registry) {name : String} {kind : ScalarKind}
    (knows : registry.Knows name kind) : document.ChainEnds name kind := by
  have registers := registers_of_ofDocument success
  rcases registers.only knows with builtin | declared
  · exact Document.chainEnds_of_builtinKind? success (builtins_knows_iff.mp builtin)
  · obtain ⟨other, ends, knowsAgain⟩ := registers.adds name declared
    exact knows.unique knowsAgain ▸ ends

end ClassSchema
