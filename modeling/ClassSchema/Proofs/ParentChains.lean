import Mathlib.Data.List.Nodup
import Mathlib.Data.List.Perm.Subperm
import Mathlib.Logic.Relation
import ClassSchema.Proofs.ImportFrame

/-! # Chains of parents

A type has a parent at most, and so has a class. A name is followed to its parent, from there to the next one,
and so on, to a name without parent. Such a chain passes no name twice, so it is no longer than the table of
the names that have parents. That is why the bounds of the walks along types and along classes are large
enough: a walk succeeds exactly where there is a chain with the end that it looks for.
-/

namespace ClassSchema

open Relation

/-- The names that are passed from a name on, each before its parent, to the last one, which has no parent. -/
inductive ChainTo (parent? : String → Option String) : String → List String → String → Prop
  | here {name : String} (ends : parent? name = none) : ChainTo parent? name [] name
  | there {name parent last : String} {passed : List String} (derives : parent? name = some parent)
      (rest : ChainTo parent? parent passed last) : ChainTo parent? name (name :: passed) last

namespace ChainTo

variable {parent? : String → Option String} {name last : String} {passed : List String}

theorem length_unique {otherLast : String} {otherPassed : List String}
    (left : ChainTo parent? name passed last) (right : ChainTo parent? name otherPassed otherLast) :
    passed.length = otherPassed.length := by
  induction left generalizing otherPassed with
  | here ends =>
    cases right with
    | here => rfl
    | there derives => exact absurd (ends.symm.trans derives) nofun
  | there derives _ ih =>
    cases right with
    | here ends => exact absurd (ends.symm.trans derives) nofun
    | there derivesAgain rest =>
      obtain rfl := Option.some.inj (derives.symm.trans derivesAgain)
      exact congrArg Nat.succ (ih rest)

/-- From each name on a chain the rest of it leads on. -/
theorem exists_from {other : String} (chain : ChainTo parent? name passed last)
    (member : other ∈ passed ++ [last]) :
    ∃ further, ChainTo parent? other further last ∧ further.length ≤ passed.length := by
  induction chain with
  | here ends =>
    rw [List.nil_append, List.mem_singleton] at member
    subst member
    exact ⟨[], .here ends, Nat.le_refl _⟩
  | there derives rest ih =>
    rw [List.cons_append, List.mem_cons] at member
    rcases member with rfl | later
    · exact ⟨_, .there derives rest, Nat.le_refl _⟩
    · obtain ⟨further, leads, shorter⟩ := ih later
      exact ⟨further, leads, Nat.le_succ_of_le shorter⟩

/-- A chain passes no name twice. -/
theorem nodup (chain : ChainTo parent? name passed last) : (passed ++ [last]).Nodup := by
  induction chain with
  | here => exact List.nodup_singleton _
  | @there name parent last passed derives rest ih =>
    rw [List.cons_append, List.nodup_cons]
    refine ⟨?_, ih⟩
    intro again
    -- The rest would lead on from the name itself, and be as long as the whole chain.
    obtain ⟨further, leads, shorter⟩ := rest.exists_from again
    have same := leads.length_unique (.there derives rest)
    rw [List.length_cons] at same
    omega

theorem isSome_of_mem {other : String} (chain : ChainTo parent? name passed last) (member : other ∈ passed) :
    (parent? other).isSome = true := by
  induction chain with
  | here => cases member
  | there derives _ ih =>
    rcases List.mem_cons.mp member with rfl | later
    · rw [derives]
      rfl
    · exact ih later

/-- A chain passes every name that can be reached. -/
theorem mem_of_reflTransGen {other : String} (chain : ChainTo parent? name passed last)
    (reaches : ReflTransGen (fun name parent => parent? name = some parent) name other) :
    other ∈ passed ++ [last] := by
  induction chain with
  | here ends =>
    rcases reaches.cases_head with rfl | ⟨_, derives, _⟩
    · exact List.mem_singleton_self _
    · exact absurd (ends.symm.trans derives) nofun
  | there derives _ ih =>
    rcases reaches.cases_head with rfl | ⟨parent, derivesAgain, further⟩
    · exact List.mem_cons_self
    · obtain rfl := Option.some.inj (derives.symm.trans derivesAgain)
      exact List.mem_cons_of_mem _ (ih further)

/-- No name on a chain comes again after it. -/
theorem not_transGen {other : String} (chain : ChainTo parent? name passed last) (member : other ∈ passed ++ [last]) :
    ¬ TransGen (fun name parent => parent? name = some parent) other other := by
  intro again
  obtain ⟨further, leads, _⟩ := chain.exists_from member
  have distinct := leads.nodup
  obtain ⟨parent, derives, reaches⟩ := TransGen.head'_iff.mp again
  cases leads with
  | here ends => exact absurd (ends.symm.trans derives) nofun
  | there derivesAgain rest =>
    obtain rfl := Option.some.inj (derives.symm.trans derivesAgain)
    exact (List.nodup_cons.mp distinct).1 (rest.mem_of_reflTransGen reaches)

end ChainTo

theorem Document.mem_keys_of_typeParent? {document : Document} {name : String}
    (derives : (document.typeParent? name).isSome = true) : name ∈ document.types.keys := by
  rw [← Table.has_iff_mem_keys]
  obtain ⟨parent, derives⟩ := Option.isSome_iff_exists.mp derives
  obtain ⟨definition, declared, _⟩ := Option.bind_eq_some_iff.mp derives
  rw [Table.has, declared]
  rfl

/-- The chain of parents of a type, from which it has its kind. -/
theorem Document.chainEnds_iff {document : Document} {name : String} {kind : ScalarKind} :
    document.ChainEnds name kind ↔
      ∃ passed last, ChainTo document.typeParent? name passed last ∧ builtinKind? last = some kind := by
  constructor
  · intro ends
    induction ends with
    | builtin ends known => exact ⟨[], _, .here ends, known⟩
    | parent derives _ ih =>
      obtain ⟨passed, last, chain, known⟩ := ih
      exact ⟨_, last, .there derives chain, known⟩
  · rintro ⟨passed, last, chain, known⟩
    induction chain with
    | here ends => exact .builtin ends known
    | there derives _ ih => exact .parent derives (ih known)

namespace TypeRegistry

variable {document : Document}

/-- The walk along the parents of a type finds the end of its chain, with fuel for each name that it
passes. -/
theorem chainKind_of_chainTo {start name last : String} {passed : List String} {kind : ScalarKind}
    (chain : ChainTo document.typeParent? name passed last) (known : builtinKind? last = some kind) {fuel : Nat}
    (enough : passed.length ≤ fuel) {seen : List String} (fresh : (passed ++ [last]).Disjoint seen) :
    chainKind document start fuel seen name = .ok kind := by
  have distinct := chain.nodup
  induction chain generalizing fuel seen with
  | @here name ends =>
    have unseen : seen.contains name = false := by simpa using fresh
    unfold chainKind
    simp only [unseen, Bool.false_eq_true, if_false, ends, known]
  | @there name parent last passed derives rest ih =>
    obtain ⟨isFresh, fresh⟩ := List.disjoint_cons_left.mp fresh
    have unseen : seen.contains name = false := by simpa using isFresh
    obtain ⟨isNew, distinct⟩ := List.nodup_cons.mp distinct
    cases fuel with
    | zero => cases enough
    | succ fuel =>
      unfold chainKind
      simp only [unseen, Bool.false_eq_true, if_false, derives]
      apply ih known (Nat.le_of_succ_le_succ enough) _ distinct
      exact List.disjoint_cons_right.mpr ⟨isNew, fresh⟩

/-- The kind of a type is found exactly if its chain of parents ends in a built-in type of that kind. -/
theorem kindOf_eq_ok_iff {name : String} {kind : ScalarKind} :
    kindOf document name = .ok kind ↔ document.ChainEnds name kind := by
  constructor
  · exact chainEnds_of_chainKind
  · intro ends
    obtain ⟨passed, last, chain, known⟩ := Document.chainEnds_iff.mp ends
    have declared : passed ⊆ document.types.keys := by
      intro other member
      exact Document.mem_keys_of_typeParent? (chain.isSome_of_mem member)
    have bounded := ((List.nodup_append.mp chain.nodup).1.subperm declared).length_le
    rw [Table.keys, List.length_map] at bounded
    exact chainKind_of_chainTo chain known bounded (by simp)

end TypeRegistry

namespace Document

variable {document : Document}

/-- The parent of a class, if the document defines the class and names one. -/
def classParent? (document : Document) (name : String) : Option String :=
  (document.class? name).bind ClassDefinition.parent?

theorem exists_class? {name : String} (member : name ∈ document.classes.keys) :
    ∃ definition, document.class? name = some definition := by
  rwa [← Table.has_iff_mem_keys, Table.has, Option.isSome_iff_exists] at member

theorem mem_keys_of_class? {name : String} {definition : ClassDefinition}
    (defined : document.class? name = some definition) : name ∈ document.classes.keys := by
  rw [← Table.has_iff_mem_keys, Table.has, ← class?, defined]
  rfl

/-- A lineage goes along a chain of parents that stays within the classes of the document. -/
theorem HasLineage.exists_chainTo {name : String} {line : List ClassDefinition}
    (has : document.HasLineage name line) :
    ∃ passed last, ChainTo document.classParent? name passed last ∧
      ∀ other ∈ passed ++ [last], other ∈ document.classes.keys := by
  induction has with
  | @root name definition defined ends =>
    have orphan : document.classParent? name = none := by rw [classParent?, defined]; exact ends
    refine ⟨[], name, .here orphan, ?_⟩
    intro other isLast
    rw [List.mem_singleton.mp isLast]
    exact mem_keys_of_class? defined
  | @child name parent definition ancestors defined derives _ ih =>
    obtain ⟨passed, last, chain, within⟩ := ih
    have hasParent : document.classParent? name = some parent := by rw [classParent?, defined]; exact derives
    refine ⟨name :: passed, last, .there hasParent chain, ?_⟩
    intro other member
    rcases List.mem_cons.mp member with rfl | later
    · exact mem_keys_of_class? defined
    · exact within other later

/-- The walk along the ancestors of a class finds the end of its chain, with fuel for each name on it. -/
theorem exists_lineageFrom {name last : String} {passed : List String}
    (chain : ChainTo document.classParent? name passed last)
    (within : ∀ other ∈ passed ++ [last], other ∈ document.classes.keys) {fuel : Nat}
    (enough : passed.length < fuel) {seen : List String} (fresh : (passed ++ [last]).Disjoint seen)
    (found : List ClassDefinition) : ∃ classes, document.lineageFrom fuel seen found name = .ok classes := by
  have distinct := chain.nodup
  induction chain generalizing fuel seen found with
  | @here name ends =>
    have unseen : seen.contains name = false := by simpa using fresh
    obtain ⟨definition, defined⟩ := exists_class? (within name List.mem_cons_self)
    have orphan : definition.parent? = none := by rwa [classParent?, defined] at ends
    cases fuel with
    | zero => cases enough
    | succ fuel =>
      refine ⟨definition :: found, ?_⟩
      unfold lineageFrom
      simp only [unseen, Bool.false_eq_true, if_false, defined, orphan]
  | @there name parent last passed derives rest ih =>
    obtain ⟨isFresh, fresh⟩ := List.disjoint_cons_left.mp fresh
    have unseen : seen.contains name = false := by simpa using isFresh
    obtain ⟨definition, defined⟩ := exists_class? (within name List.mem_cons_self)
    have hasParent : definition.parent? = some parent := by rwa [classParent?, defined] at derives
    obtain ⟨isNew, distinct⟩ := List.nodup_cons.mp distinct
    cases fuel with
    | zero => cases enough
    | succ fuel =>
      unfold lineageFrom
      simp only [unseen, Bool.false_eq_true, if_false, defined, hasParent]
      apply ih _ (Nat.lt_of_succ_lt_succ enough) _ _ distinct
      · intro other later
        exact within other (List.mem_cons_of_mem _ later)
      · exact List.disjoint_cons_right.mpr ⟨isNew, fresh⟩

/-- The lineage of a class is found exactly if its chain of parents ends and stays within the classes. -/
theorem exists_lineage_iff {name : String} :
    (∃ classes, document.lineage name = .ok classes) ↔
      ∃ passed last, ChainTo document.classParent? name passed last ∧
        ∀ other ∈ passed ++ [last], other ∈ document.classes.keys := by
  constructor
  · rintro ⟨classes, success⟩
    obtain ⟨line, has, _⟩ := hasLineage_of_lineageFrom success
    exact has.exists_chainTo
  · rintro ⟨passed, last, chain, within⟩
    have bounded := (chain.nodup.subperm within).length_le
    rw [List.length_append, Table.keys, List.length_map] at bounded
    exact exists_lineageFrom chain within bounded (by simp) []

/-- The same holds of the induced attributes, which come from the lineage. -/
theorem exists_inducedAttributes_iff {name : String} :
    (∃ attributes, document.inducedAttributes name = .ok attributes) ↔
      ∃ passed last, ChainTo document.classParent? name passed last ∧
        ∀ other ∈ passed ++ [last], other ∈ document.classes.keys := by
  rw [← exists_lineage_iff]
  constructor
  · rintro ⟨attributes, induced⟩
    obtain ⟨classes, success, _⟩ := bind_eq_ok_iff.mp induced
    exact ⟨classes, success⟩
  · rintro ⟨classes, success⟩
    exact ⟨_, bind_eq_ok_iff.mpr ⟨classes, success, rfl⟩⟩

end Document

end ClassSchema
