import Mathlib.Data.List.Forall2
import ClassSchema.Import.Merge
import ClassSchema.Proofs.DocumentNames

/-! # Definitions that cover others

A definition covers another one when it says all that the other one says, descriptions apart: the same
parent, the same attributes in the same order, and every URI that the other one gives. Merging two
definitions gives the least definition that covers both, and it fails only where none does. The same holds
of tables and of documents, so what a merged document says does not depend on how it was put together.
-/

namespace ClassSchema

/-- Whether a URI that may be absent is given wherever the other one is, and is the same there. -/
def CoversUri (whole part : Option String) : Prop :=
  ∀ uri, part = some uri → whole = some uri

/-- Whether a type says all that another one says. -/
structure TypeDefinition.Covers (whole part : TypeDefinition) : Prop where
  typeof? : whole.typeof? = part.typeof?
  uri? : CoversUri whole.uri? part.uri?

/-- Whether an attribute says all that another one says. -/
structure Attribute.Covers (whole part : Attribute) : Prop where
  name : whole.name = part.name
  range : whole.range = part.range
  multivalued : whole.multivalued = part.multivalued
  required : whole.required = part.required
  identifier : whole.identifier = part.identifier
  slotUri? : CoversUri whole.slotUri? part.slotUri?

/-- Whether a class says all that another one says. -/
structure ClassDefinition.Covers (whole part : ClassDefinition) : Prop where
  parent? : whole.parent? = part.parent?
  uri? : CoversUri whole.uri? part.uri?
  /-- The attributes are covered one by one. -/
  attributes : List.Forall₂ Attribute.Covers whole.attributes part.attributes

/-- Whether a table has every name of another one, with a value that covers the value there. -/
def Table.Covers {α : Type} (covers : α → α → Prop) (whole part : Table α) : Prop :=
  ∀ name value, part.get? name = some value → ∃ known, whole.get? name = some known ∧ covers known value

/-- Whether a document has every prefix, type and class of another one and says all that is said there. -/
structure Document.Covers (whole part : Document) : Prop where
  prefixes : whole.prefixes.Covers Eq part.prefixes
  types : whole.types.Covers TypeDefinition.Covers part.types
  classes : whole.classes.Covers ClassDefinition.Covers part.classes

theorem CoversUri.trans {whole middle part : Option String} (outer : CoversUri whole middle)
    (inner : CoversUri middle part) : CoversUri whole part :=
  fun uri given => outer uri (inner uri given)

theorem TypeDefinition.Covers.refl (type : TypeDefinition) : type.Covers type :=
  ⟨rfl, fun _ => id⟩

theorem TypeDefinition.Covers.trans {whole middle part : TypeDefinition} (outer : whole.Covers middle)
    (inner : middle.Covers part) : whole.Covers part :=
  ⟨outer.typeof?.trans inner.typeof?, outer.uri?.trans inner.uri?⟩

theorem Attribute.Covers.refl (attr : Attribute) : attr.Covers attr :=
  ⟨rfl, rfl, rfl, rfl, rfl, fun _ => id⟩

theorem Attribute.Covers.trans {whole middle part : Attribute} (outer : whole.Covers middle)
    (inner : middle.Covers part) : whole.Covers part where
  name := outer.name.trans inner.name
  range := outer.range.trans inner.range
  multivalued := outer.multivalued.trans inner.multivalued
  required := outer.required.trans inner.required
  identifier := outer.identifier.trans inner.identifier
  slotUri? := outer.slotUri?.trans inner.slotUri?

/-- Relations that compose do so element by element. -/
theorem forall₂_compose {α β γ : Type} {outer : α → β → Prop} {inner : β → γ → Prop}
    {both : α → γ → Prop} {tops : List α} {middles : List β} {bottoms : List γ}
    (above : List.Forall₂ outer tops middles) (below : List.Forall₂ inner middles bottoms)
    (compose : ∀ {top middle bottom}, outer top middle → inner middle bottom → both top bottom) :
    List.Forall₂ both tops bottoms := by
  induction above generalizing bottoms with
  | nil =>
    cases below
    exact .nil
  | cons first _ ih =>
    cases below with
    | cons next others => exact .cons (compose first next) (ih others)

theorem ClassDefinition.Covers.refl (definition : ClassDefinition) : definition.Covers definition :=
  ⟨rfl, fun _ => id, List.forall₂_same.mpr fun attr _ => Attribute.Covers.refl attr⟩

theorem ClassDefinition.Covers.trans {whole middle part : ClassDefinition} (outer : whole.Covers middle)
    (inner : middle.Covers part) : whole.Covers part where
  parent? := outer.parent?.trans inner.parent?
  uri? := outer.uri?.trans inner.uri?
  attributes := forall₂_compose outer.attributes inner.attributes Attribute.Covers.trans

namespace Table

variable {α : Type} {covers : α → α → Prop}

theorem Covers.refl (each : ∀ value, covers value value) (table : Table α) : table.Covers covers table :=
  fun _ value found => ⟨value, found, each value⟩

theorem Covers.trans {whole middle part : Table α} (outer : whole.Covers covers middle)
    (inner : middle.Covers covers part)
    (each : ∀ {whole middle part}, covers whole middle → covers middle part → covers whole part) :
    whole.Covers covers part := by
  intro name value found
  obtain ⟨known, inMiddle, under⟩ := inner name value found
  obtain ⟨top, inWhole, covering⟩ := outer name known inMiddle
  exact ⟨top, inWhole, each covering under⟩

theorem Covers.has {whole part : Table α} (covering : whole.Covers covers part) {name : String}
    (present : part.has name = true) : whole.has name = true := by
  obtain ⟨value, inPart⟩ := Option.isSome_iff_exists.mp present
  obtain ⟨known, inWhole, _⟩ := covering name value inPart
  exact Option.isSome_iff_exists.mpr ⟨known, inWhole⟩

/-- A table that covers another one covers what stands under a name there by what it has under that name. -/
theorem Covers.of_get? {whole part : Table α} (covering : whole.Covers covers part) {name : String}
    {top value : α} (inWhole : whole.get? name = some top) (inPart : part.get? name = some value) :
    covers top value := by
  obtain ⟨known, present, above⟩ := covering name value inPart
  exact Option.some.inj (present.symm.trans inWhole) ▸ above

theorem Covers.of_cons {bound : Table α} {name : String} {value : α} {rest : List (String × α)}
    (distinct : (keys ((name, value) :: rest)).Nodup)
    (covering : bound.Covers covers ((name, value) :: rest)) :
    (∃ known, bound.get? name = some known ∧ covers known value) ∧ bound.Covers covers rest := by
  refine ⟨covering name value (by rw [get?_cons, if_pos rfl]), ?_⟩
  intro other later found
  refine covering other later ?_
  have isNew := (List.nodup_cons.mp distinct).1
  rw [get?_cons, if_neg, found]
  rintro rfl
  exact isNew ((has_iff_mem_keys rest name).mp (by rw [Table.has, found]; rfl))

end Table

theorem Document.Covers.refl (document : Document) : document.Covers document :=
  ⟨Table.Covers.refl (fun _ => rfl) _, Table.Covers.refl TypeDefinition.Covers.refl _,
    Table.Covers.refl ClassDefinition.Covers.refl _⟩

theorem Document.Covers.trans {whole middle part : Document} (outer : whole.Covers middle)
    (inner : middle.Covers part) : whole.Covers part :=
  ⟨outer.prefixes.trans inner.prefixes Eq.trans, outer.types.trans inner.types TypeDefinition.Covers.trans,
    outer.classes.trans inner.classes ClassDefinition.Covers.trans⟩

section LeastCover

/-- Whether an operation takes `part` in and nothing else: its result is the least that covers what it was
given and `part`, and there is one where anything covers both. -/
structure TakesIn {ε α : Type} (covers : α → α → Prop) (part : α) (add : α → Except ε α) : Prop where
  keeps : ∀ {whole next}, add whole = .ok next → covers next whole
  adds : ∀ {whole next}, add whole = .ok next → covers next part
  least : ∀ {whole next bound}, add whole = .ok next → covers bound whole → covers bound part →
    covers bound next
  exists_ok : ∀ {whole bound}, covers bound whole → covers bound part → ∃ next, add whole = .ok next

theorem takesIn_mergePrefix (right : String) : TakesIn Eq right (mergePrefix · right) where
  keeps {whole next} success := by
    unfold mergePrefix at success
    split at success <;> cases success
    rfl
  adds {whole next} success := by
    unfold mergePrefix at success
    split at success <;> cases success
    assumption
  least {whole next bound} success overLeft _ := by
    unfold mergePrefix at success
    split at success <;> cases success
    exact overLeft
  exists_ok {whole bound} overLeft overRight :=
    ⟨whole, if_pos (overLeft.symm.trans overRight)⟩

/-- Two URIs are merged exactly if not both are given and different, and then into the given one. -/
theorem mergeUri_eq_ok_iff {subject : String} {left right merged : Option String} :
    mergeUri subject left right = .ok merged ↔
      merged = (left <|> right) ∧ ∀ x y, left = some x → right = some y → x = y := by
  cases left <;> cases right <;> simp [mergeUri, eq_comm]
  split <;> simp_all

theorem takesIn_mergeUri (subject : String) (right : Option String) :
    TakesIn CoversUri right (mergeUri subject · right) where
  keeps {whole next} success := by
    obtain ⟨rfl, _⟩ := Iff.mp mergeUri_eq_ok_iff success
    rintro uri rfl
    rfl
  adds {whole next} success := by
    obtain ⟨rfl, same⟩ := Iff.mp mergeUri_eq_ok_iff success
    rintro uri rfl
    cases whole with
    | none => rfl
    | some other => exact congrArg some (same other uri rfl rfl)
  least {whole next bound} success overLeft overRight := by
    obtain ⟨rfl, _⟩ := Iff.mp mergeUri_eq_ok_iff success
    cases whole with
    | none => exact overRight
    | some other => exact overLeft
  exists_ok {whole bound} overLeft overRight := by
    refine ⟨_, Iff.mpr mergeUri_eq_ok_iff ⟨rfl, ?_⟩⟩
    intro x y given other
    exact Option.some.inj ((overLeft x given).symm.trans (overRight y other))

theorem TypeDefinition.merge_eq_ok_iff {left right merged : TypeDefinition} :
    left.merge right = .ok merged ↔ left.typeof? = right.typeof? ∧
      ∃ uri?, mergeUri "uri" left.uri? right.uri? = .ok uri? ∧
        merged = { left with uri? := uri?, description? := left.description? <|> right.description? } := by
  unfold TypeDefinition.merge
  split
  · rename_i differ
    simp [differ]
  · rename_i same
    simp only [bind_eq_ok_iff, pure, Except.pure, Except.ok.injEq, Decidable.not_not.mp same, true_and,
      eq_comm (a := merged)]

theorem takesIn_mergeType (right : TypeDefinition) :
    TakesIn TypeDefinition.Covers right (TypeDefinition.merge · right) where
  keeps {whole next} success := by
    obtain ⟨_, uri?, merged, rfl⟩ := Iff.mp TypeDefinition.merge_eq_ok_iff success
    exact ⟨rfl, (takesIn_mergeUri _ _).keeps merged⟩
  adds {whole next} success := by
    obtain ⟨same, uri?, merged, rfl⟩ := Iff.mp TypeDefinition.merge_eq_ok_iff success
    exact ⟨same, (takesIn_mergeUri _ _).adds merged⟩
  least {whole next bound} success overLeft overRight := by
    obtain ⟨_, uri?, merged, rfl⟩ := Iff.mp TypeDefinition.merge_eq_ok_iff success
    exact ⟨overLeft.typeof?, (takesIn_mergeUri _ _).least merged overLeft.uri? overRight.uri?⟩
  exists_ok {whole bound} overLeft overRight := by
    obtain ⟨uri?, merged⟩ := (takesIn_mergeUri "uri" _).exists_ok overLeft.uri? overRight.uri?
    have same := overLeft.typeof?.symm.trans overRight.typeof?
    exact ⟨_, Iff.mpr TypeDefinition.merge_eq_ok_iff ⟨same, uri?, merged, rfl⟩⟩

theorem Attribute.sameShape_iff {left right : Attribute} :
    left.sameShape right = true ↔ left.range = right.range ∧ left.multivalued = right.multivalued ∧
      left.required = right.required ∧ left.identifier = right.identifier := by
  simp [Attribute.sameShape, and_assoc]

theorem Attribute.merge_eq_ok_iff {left right merged : Attribute} :
    left.merge right = .ok merged ↔ left.name = right.name ∧ left.sameShape right = true ∧
      ∃ uri?, mergeUri s!"'{left.name}' slot_uri" left.slotUri? right.slotUri? = .ok uri? ∧
        merged = { left with slotUri? := uri?, description? := left.description? <|> right.description? } := by
  unfold Attribute.merge
  split
  · rename_i differ
    simp [differ]
  · rename_i sameName
    split
    · rename_i differ
      simp only [Bool.not_eq_true'] at differ
      simp [differ]
    · rename_i sameShape
      simp only [Bool.not_eq_true', Bool.not_eq_false] at sameShape
      simp only [bind_eq_ok_iff, pure, Except.pure, Except.ok.injEq, Decidable.not_not.mp sameName,
        sameShape, true_and, eq_comm (a := merged)]

theorem takesIn_mergeAttribute (right : Attribute) :
    TakesIn Attribute.Covers right (Attribute.merge · right) where
  keeps {whole next} success := by
    obtain ⟨_, _, uri?, merged, rfl⟩ := Iff.mp Attribute.merge_eq_ok_iff success
    exact ⟨rfl, rfl, rfl, rfl, rfl, (takesIn_mergeUri _ _).keeps merged⟩
  adds {whole next} success := by
    obtain ⟨sameName, sameShape, uri?, merged, rfl⟩ := Iff.mp Attribute.merge_eq_ok_iff success
    obtain ⟨range, multivalued, required, identifier⟩ := Iff.mp Attribute.sameShape_iff sameShape
    exact ⟨sameName, range, multivalued, required, identifier, (takesIn_mergeUri _ _).adds merged⟩
  least {whole next bound} success overLeft overRight := by
    obtain ⟨_, _, uri?, merged, rfl⟩ := Iff.mp Attribute.merge_eq_ok_iff success
    exact { overLeft with
      slotUri? := (takesIn_mergeUri _ _).least merged overLeft.slotUri? overRight.slotUri? }
  exists_ok {whole bound} overLeft overRight := by
    obtain ⟨uri?, merged⟩ :=
      (takesIn_mergeUri s!"'{whole.name}' slot_uri" _).exists_ok overLeft.slotUri? overRight.slotUri?
    have sameShape : whole.sameShape right = true := Iff.mpr Attribute.sameShape_iff
      ⟨overLeft.range.symm.trans overRight.range, overLeft.multivalued.symm.trans overRight.multivalued,
        overLeft.required.symm.trans overRight.required, overLeft.identifier.symm.trans overRight.identifier⟩
    have sameName := overLeft.name.symm.trans overRight.name
    exact ⟨_, Iff.mpr Attribute.merge_eq_ok_iff ⟨sameName, sameShape, uri?, merged, rfl⟩⟩

end LeastCover

section Attributes

theorem mergeAttributes_cons_eq_ok_iff {left right : Attribute} {lefts rights merged : List Attribute} :
    mergeAttributes (left :: lefts) (right :: rights) = .ok merged ↔
      ∃ first, left.merge right = .ok first ∧
        ∃ rest, mergeAttributes lefts rights = .ok rest ∧ merged = first :: rest := by
  simp only [mergeAttributes, bind_eq_ok_iff, pure, Except.pure, Except.ok.injEq, eq_comm (a := merged)]

/-- Merged attributes cover both lists one by one. -/
theorem forall₂_mergeAttributes {lefts rights merged : List Attribute} (same : lefts.length = rights.length)
    (success : mergeAttributes lefts rights = .ok merged) :
    List.Forall₂ Attribute.Covers merged lefts ∧ List.Forall₂ Attribute.Covers merged rights := by
  induction lefts generalizing rights merged with
  | nil =>
    obtain rfl := List.length_eq_zero_iff.mp same.symm
    cases success
    exact ⟨.nil, .nil⟩
  | cons left lefts ih =>
    cases rights with
    | nil => cases same
    | cons right rights =>
      obtain ⟨first, mergedFirst, rest, mergedRest, rfl⟩ := Iff.mp mergeAttributes_cons_eq_ok_iff success
      obtain ⟨overLefts, overRights⟩ := ih (Nat.succ.inj same) mergedRest
      have takesIn := takesIn_mergeAttribute right
      exact ⟨.cons (takesIn.keeps mergedFirst) overLefts, .cons (takesIn.adds mergedFirst) overRights⟩

theorem least_mergeAttributes {lefts rights merged bounds : List Attribute}
    (success : mergeAttributes lefts rights = .ok merged)
    (overLefts : List.Forall₂ Attribute.Covers bounds lefts)
    (overRights : List.Forall₂ Attribute.Covers bounds rights) :
    List.Forall₂ Attribute.Covers bounds merged := by
  induction overLefts generalizing rights merged with
  | nil =>
    cases overRights
    cases success
    exact .nil
  | cons overLeft _ ih =>
    cases overRights with
    | cons overRight overRights =>
      obtain ⟨first, mergedFirst, rest, mergedRest, rfl⟩ := Iff.mp mergeAttributes_cons_eq_ok_iff success
      exact .cons ((takesIn_mergeAttribute _).least mergedFirst overLeft overRight) (ih mergedRest overRights)

theorem exists_mergeAttributes {lefts rights bounds : List Attribute}
    (overLefts : List.Forall₂ Attribute.Covers bounds lefts)
    (overRights : List.Forall₂ Attribute.Covers bounds rights) :
    ∃ merged, mergeAttributes lefts rights = .ok merged := by
  induction overLefts generalizing rights with
  | nil => exact ⟨[], by cases overRights; rfl⟩
  | cons overLeft _ ih =>
    cases overRights with
    | cons overRight overRights =>
      obtain ⟨first, mergedFirst⟩ := (takesIn_mergeAttribute _).exists_ok overLeft overRight
      obtain ⟨rest, mergedRest⟩ := ih overRights
      exact ⟨_, Iff.mpr mergeAttributes_cons_eq_ok_iff ⟨first, mergedFirst, rest, mergedRest, rfl⟩⟩

end Attributes

section Classes

theorem ClassDefinition.merge_eq_ok_iff {left right merged : ClassDefinition} :
    left.merge right = .ok merged ↔ left.parent? = right.parent? ∧
      left.attributes.length = right.attributes.length ∧
      ∃ attributes, mergeAttributes left.attributes right.attributes = .ok attributes ∧
        ∃ uri?, mergeUri "class_uri" left.uri? right.uri? = .ok uri? ∧
          merged = { left with
            uri? := uri?
            description? := left.description? <|> right.description?
            attributes := attributes } := by
  unfold ClassDefinition.merge
  split
  · rename_i differ
    simp [differ]
  · rename_i sameParent
    split
    · rename_i differ
      simp [differ]
    · rename_i sameLength
      simp only [bind_eq_ok_iff, pure, Except.pure, Except.ok.injEq, Decidable.not_not.mp sameParent,
        Decidable.not_not.mp sameLength, true_and, eq_comm (a := merged)]

theorem takesIn_mergeClass (right : ClassDefinition) :
    TakesIn ClassDefinition.Covers right (ClassDefinition.merge · right) where
  keeps {whole next} success := by
    obtain ⟨_, sameLength, attributes, mergedAttributes, uri?, mergedUri, rfl⟩ :=
      Iff.mp ClassDefinition.merge_eq_ok_iff success
    have overLefts := (forall₂_mergeAttributes sameLength mergedAttributes).1
    exact ⟨rfl, (takesIn_mergeUri _ _).keeps mergedUri, overLefts⟩
  adds {whole next} success := by
    obtain ⟨sameParent, sameLength, attributes, mergedAttributes, uri?, mergedUri, rfl⟩ :=
      Iff.mp ClassDefinition.merge_eq_ok_iff success
    have overRights := (forall₂_mergeAttributes sameLength mergedAttributes).2
    exact ⟨sameParent, (takesIn_mergeUri _ _).adds mergedUri, overRights⟩
  least {whole next bound} success overLeft overRight := by
    obtain ⟨_, _, attributes, mergedAttributes, uri?, mergedUri, rfl⟩ :=
      Iff.mp ClassDefinition.merge_eq_ok_iff success
    exact ⟨overLeft.parent?, (takesIn_mergeUri _ _).least mergedUri overLeft.uri? overRight.uri?,
      least_mergeAttributes mergedAttributes overLeft.attributes overRight.attributes⟩
  exists_ok {whole bound} overLeft overRight := by
    obtain ⟨attributes, mergedAttributes⟩ := exists_mergeAttributes overLeft.attributes overRight.attributes
    obtain ⟨uri?, mergedUri⟩ := (takesIn_mergeUri "class_uri" _).exists_ok overLeft.uri? overRight.uri?
    have sameParent := overLeft.parent?.symm.trans overRight.parent?
    have sameLength := overLeft.attributes.length_eq.symm.trans overRight.attributes.length_eq
    exact ⟨_, Iff.mpr ClassDefinition.merge_eq_ok_iff
      ⟨sameParent, sameLength, attributes, mergedAttributes, uri?, mergedUri, rfl⟩⟩

end Classes

section Tables

variable {α : Type} {covers : α → α → Prop} {merge : α → α → Merging α} {kind : DefinitionKind}
  {source : String}

/-- One entry goes under its name, merged with what is there; no other name changes. -/
theorem mergeEntry_eq_ok_iff {target result : Table α} {name : String} {value : α} :
    mergeEntry merge kind source target name value = .ok result ↔
      ∃ merged, result = target.set name merged ∧
        match target.get? name with
        | none => merged = value
        | some known => merge known value = .ok merged := by
  unfold mergeEntry
  cases target.get? name with
  | none => simp [eq_comm]
  | some known => cases union : merge known value <;> simp [union, eq_comm]

theorem mergeTable_cons_eq_ok_iff {target result : Table α} {name : String} {value : α}
    {rest : List (String × α)} :
    mergeTable merge kind source target ((name, value) :: rest) = .ok result ↔
      ∃ next, mergeEntry merge kind source target name value = .ok next ∧
        mergeTable merge kind source next rest = .ok result := by
  simp only [mergeTable, bind_eq_ok_iff]

variable (refl : ∀ value, covers value value) (takesIn : ∀ part, TakesIn covers part (merge · part))
include refl takesIn

theorem keeps_mergeEntry {target result : Table α} {name : String} {value : α}
    (success : mergeEntry merge kind source target name value = .ok result) :
    result.Covers covers target := by
  obtain ⟨merged, rfl, union⟩ := Iff.mp mergeEntry_eq_ok_iff success
  intro other old found
  rw [Table.get?_set]
  by_cases same : name = other
  · subst same
    rw [found] at union
    exact ⟨merged, if_pos rfl, (takesIn value).keeps union⟩
  · exact ⟨old, (if_neg same).trans found, refl old⟩

theorem adds_mergeEntry {target result : Table α} {name : String} {value : α}
    (success : mergeEntry merge kind source target name value = .ok result) :
    ∃ known, result.get? name = some known ∧ covers known value := by
  obtain ⟨merged, rfl, union⟩ := Iff.mp mergeEntry_eq_ok_iff success
  refine ⟨merged, by rw [Table.get?_set, if_pos rfl], ?_⟩
  cases found : target.get? name with
  | none =>
    rw [found] at union
    subst union
    exact refl merged
  | some known =>
    rw [found] at union
    exact (takesIn value).adds union

omit refl in
theorem least_mergeEntry {target result bound : Table α} {name : String} {value : α}
    (success : mergeEntry merge kind source target name value = .ok result)
    (overTarget : bound.Covers covers target)
    (overValue : ∃ known, bound.get? name = some known ∧ covers known value) :
    bound.Covers covers result := by
  obtain ⟨merged, rfl, union⟩ := Iff.mp mergeEntry_eq_ok_iff success
  intro other stored found
  rw [Table.get?_set] at found
  by_cases same : name = other
  · subst same
    rw [if_pos rfl] at found
    cases found
    obtain ⟨top, atName, covering⟩ := overValue
    refine ⟨top, atName, ?_⟩
    cases present : target.get? name with
    | none =>
      rw [present] at union
      exact union ▸ covering
    | some known =>
      rw [present] at union
      exact (takesIn value).least union (overTarget.of_get? atName present) covering
  · exact overTarget other stored ((if_neg same).symm.trans found)

omit refl in
theorem exists_mergeEntry {target bound : Table α} {name : String} {value : α}
    (overTarget : bound.Covers covers target)
    (overValue : ∃ known, bound.get? name = some known ∧ covers known value) :
    ∃ result, mergeEntry merge kind source target name value = .ok result := by
  cases present : target.get? name with
  | none => exact ⟨_, Iff.mpr mergeEntry_eq_ok_iff ⟨value, rfl, by rw [present]⟩⟩
  | some known =>
    obtain ⟨top, atName, covering⟩ := overValue
    obtain ⟨merged, union⟩ := (takesIn value).exists_ok (overTarget.of_get? atName present) covering
    exact ⟨_, Iff.mpr mergeEntry_eq_ok_iff ⟨merged, rfl, by rw [present]; exact union⟩⟩

/-- Merging a table without repeated names takes it in. -/
theorem takesIn_mergeTable (kind : DefinitionKind) (source : String)
    (trans : ∀ {whole middle part}, covers whole middle → covers middle part → covers whole part)
    {entries : Table α} (distinct : entries.keys.Nodup) :
    TakesIn (Table.Covers covers) entries (mergeTable merge kind source · entries) := by
  induction entries with
  | nil =>
    constructor
    · rintro whole next ⟨⟩
      exact Table.Covers.refl refl whole
    · intro whole next _ name value found
      cases found
    · rintro whole next bound ⟨⟩ covering _
      exact covering
    · exact fun _ _ => ⟨_, rfl⟩
  | cons entry rest ih =>
    obtain ⟨name, value⟩ := entry
    have later := ih (List.nodup_cons.mp distinct).2
    constructor
    · intro whole next success
      obtain ⟨middle, first, others⟩ := Iff.mp mergeTable_cons_eq_ok_iff success
      exact (later.keeps others).trans (keeps_mergeEntry refl takesIn first) trans
    · intro whole next success other stored found
      obtain ⟨middle, first, others⟩ := Iff.mp mergeTable_cons_eq_ok_iff success
      rw [Table.get?_cons] at found
      split at found
      · rename_i same
        subst same
        cases found
        -- What the first entry put under its name is kept by the others.
        obtain ⟨known, inMiddle, covering⟩ := adds_mergeEntry refl takesIn first
        obtain ⟨top, inNext, above⟩ := later.keeps others name known inMiddle
        exact ⟨top, inNext, trans above covering⟩
      · exact later.adds others other stored found
    · intro whole next bound success overWhole overEntries
      obtain ⟨middle, first, others⟩ := Iff.mp mergeTable_cons_eq_ok_iff success
      obtain ⟨overValue, overRest⟩ := Table.Covers.of_cons distinct overEntries
      exact later.least others (least_mergeEntry takesIn first overWhole overValue) overRest
    · intro whole bound overWhole overEntries
      obtain ⟨overValue, overRest⟩ := Table.Covers.of_cons distinct overEntries
      obtain ⟨middle, first⟩ := exists_mergeEntry takesIn overWhole overValue
      obtain ⟨next, others⟩ := later.exists_ok (least_mergeEntry takesIn first overWhole overValue) overRest
      exact ⟨next, Iff.mpr mergeTable_cons_eq_ok_iff ⟨middle, first, others⟩⟩

end Tables

section Documents

theorem Document.merge_eq_ok_iff {target source merged : Document} :
    target.merge source = .ok merged ↔
      ∃ prefixes, mergeTable mergePrefix .prefixUri source.id target.prefixes source.prefixes = .ok prefixes ∧
      ∃ types, mergeTable TypeDefinition.merge .typeDefinition source.id target.types source.types = .ok types ∧
      ∃ classes,
        mergeTable ClassDefinition.merge .classDefinition source.id target.classes source.classes = .ok classes ∧
        merged = { target with prefixes := prefixes, types := types, classes := classes } := by
  simp only [Document.merge, bind_eq_ok_iff, pure, Except.pure, Except.ok.injEq, eq_comm (a := merged)]

/-- Merging a document takes its definitions in. -/
theorem takesIn_mergeDocument {source : Document} (named : source.IsNamed) :
    TakesIn Document.Covers source (Document.merge · source) := by
  have prefixes := takesIn_mergeTable (fun _ => rfl) takesIn_mergePrefix .prefixUri source.id Eq.trans
    named.prefixes
  have types := takesIn_mergeTable TypeDefinition.Covers.refl takesIn_mergeType .typeDefinition source.id
    TypeDefinition.Covers.trans named.types.distinct
  have classes := takesIn_mergeTable ClassDefinition.Covers.refl takesIn_mergeClass .classDefinition source.id
    ClassDefinition.Covers.trans named.classes.distinct
  constructor
  · intro whole next success
    obtain ⟨_, first, _, second, _, third, rfl⟩ := Iff.mp Document.merge_eq_ok_iff success
    exact ⟨prefixes.keeps first, types.keeps second, classes.keeps third⟩
  · intro whole next success
    obtain ⟨_, first, _, second, _, third, rfl⟩ := Iff.mp Document.merge_eq_ok_iff success
    exact ⟨prefixes.adds first, types.adds second, classes.adds third⟩
  · intro whole next bound success overWhole overSource
    obtain ⟨_, first, _, second, _, third, rfl⟩ := Iff.mp Document.merge_eq_ok_iff success
    exact ⟨prefixes.least first overWhole.prefixes overSource.prefixes,
      types.least second overWhole.types overSource.types,
      classes.least third overWhole.classes overSource.classes⟩
  · intro whole bound overWhole overSource
    obtain ⟨_, first⟩ := prefixes.exists_ok overWhole.prefixes overSource.prefixes
    obtain ⟨_, second⟩ := types.exists_ok overWhole.types overSource.types
    obtain ⟨_, third⟩ := classes.exists_ok overWhole.classes overSource.classes
    exact ⟨_, Iff.mpr Document.merge_eq_ok_iff ⟨_, first, _, second, _, third, rfl⟩⟩

end Documents

/-- Storing a value of a name under it keeps names proper. -/
theorem Table.IsNamed.set {α : Type} {nameOf : α → String} {table : Table α} (named : table.IsNamed nameOf)
    {name : String} {value : α} (own : nameOf value = name) : (table.set name value).IsNamed nameOf := by
  refine ⟨nodup_keys_set named.distinct name value, ?_⟩
  intro other stored found
  rw [get?_set] at found
  split at found
  · rename_i same
    cases found
    exact own.trans same
  · exact named.named other stored found

section Keeping

variable {α : Type} {merge : α → α → Merging α} {kind : DefinitionKind} {source : String}

/-- What merging each entry of a table keeps is kept by merging the table. -/
theorem mergeTable_keeps (invariant : Table α → Prop) {entries : List (String × α)}
    (keeps : ∀ {target result name value}, (name, value) ∈ entries →
      mergeEntry merge kind source target name value = .ok result → invariant target → invariant result)
    {target result : Table α} (success : mergeTable merge kind source target entries = .ok result)
    (start : invariant target) : invariant result := by
  induction entries generalizing target with
  | nil =>
    cases success
    exact start
  | cons entry rest ih =>
    obtain ⟨name, value⟩ := entry
    obtain ⟨next, first, others⟩ := Iff.mp mergeTable_cons_eq_ok_iff success
    exact ih (fun present => keeps (List.mem_cons_of_mem _ present)) others
      (keeps List.mem_cons_self first start)

/-- The names of a table come first, in their order, whatever is merged into it. -/
theorem keys_prefix_mergeTable {entries : List (String × α)} {target result : Table α}
    (success : mergeTable merge kind source target entries = .ok result) : target.keys <+: result.keys := by
  refine mergeTable_keeps (fun table => target.keys <+: table.keys) ?_ success List.prefix_rfl
  intro table next name value _ stepped before
  obtain ⟨merged, rfl, _⟩ := Iff.mp mergeEntry_eq_ok_iff stepped
  rw [Table.keys_set]
  split
  · exact before
  · exact before.trans (List.prefix_append _ _)

theorem nodup_mergeTable {entries : List (String × α)} {target result : Table α}
    (success : mergeTable merge kind source target entries = .ok result) (distinct : target.keys.Nodup) :
    result.keys.Nodup := by
  refine mergeTable_keeps (fun table => table.keys.Nodup) ?_ success distinct
  intro table next name value _ stepped before
  obtain ⟨merged, rfl, _⟩ := Iff.mp mergeEntry_eq_ok_iff stepped
  exact Table.nodup_keys_set before name merged

/-- Where merging leaves the name of the known value, names stay proper. -/
theorem isNamed_mergeTable {nameOf : α → String}
    (keepsName : ∀ {left right merged}, merge left right = .ok merged → nameOf merged = nameOf left)
    {entries target result : Table α} (success : mergeTable merge kind source target entries = .ok result)
    (named : target.IsNamed nameOf) (others : entries.IsNamed nameOf) : result.IsNamed nameOf := by
  refine mergeTable_keeps (fun table => table.IsNamed nameOf) ?_ success named
  intro table next name value present stepped before
  obtain ⟨merged, rfl, union⟩ := Iff.mp mergeEntry_eq_ok_iff stepped
  refine before.set ?_
  cases found : table.get? name with
  | none =>
    rw [found] at union
    subst union
    exact others.named name merged ((Table.get?_eq_some_iff_mem others.distinct).mpr present)
  | some known =>
    rw [found] at union
    exact (keepsName union).trans (before.named name known found)

end Keeping

/-- Merging keeps names proper. -/
theorem Document.IsNamed.merge {target source merged : Document} (named : target.IsNamed)
    (others : source.IsNamed) (success : target.merge source = .ok merged) : merged.IsNamed := by
  obtain ⟨_, prefixes, _, types, _, classes, rfl⟩ := Iff.mp Document.merge_eq_ok_iff success
  refine ⟨nodup_mergeTable prefixes named.prefixes, isNamed_mergeTable ?_ types named.types others.types,
    isNamed_mergeTable ?_ classes named.classes others.classes⟩
  · intro left right merged success
    obtain ⟨_, _, _, rfl⟩ := Iff.mp TypeDefinition.merge_eq_ok_iff success
    rfl
  · intro left right merged success
    obtain ⟨_, _, _, _, _, _, rfl⟩ := Iff.mp ClassDefinition.merge_eq_ok_iff success
    rfl

end ClassSchema
