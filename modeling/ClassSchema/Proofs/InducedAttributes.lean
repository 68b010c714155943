import Mathlib.Data.List.Nodup
import Mathlib.Logic.Relation
import ClassSchema.Proofs.DeclaredAttributes
import ClassSchema.Proofs.Inheritance
import ClassSchema.Proofs.ParentChains

/-! # Induced attributes

The attributes of a class are found by going up to the most distant ancestor and coming down again, each class
overriding what it finds. Here they are described from the class itself. Going up without any bound comes to an
end; it fails where a class is missing or comes again, and nowhere else. Coming down takes what the parent has,
puts the own attributes in the places of those that they redefine and the others at the end. So under each name
stands what the nearest class that declares the name declares.
-/

namespace ClassSchema

open Relation

/-- The attribute of the same name among the own ones, or the attribute itself. -/
def Attribute.redefinedBy (own : List Attribute) (attr : Attribute) : Attribute :=
  (own.find? fun other => other.name = attr.name).getD attr

@[simp] theorem Attribute.redefinedBy_nil : Attribute.redefinedBy [] = id := rfl

theorem Attribute.redefinedBy_of_not_mem {own : List Attribute} {attr : Attribute}
    (kept : attr.name ∉ own.map Attribute.name) : attr.redefinedBy own = attr := by
  have absent : own.find? (fun other => other.name = attr.name) = none := by
    rw [List.find?_eq_none]
    intro other member same
    exact kept (List.mem_map.mpr ⟨other, member, of_decide_eq_true same⟩)
  rw [redefinedBy, absent, Option.getD_none]

theorem Attribute.redefinedBy_cons_of_eq {own : List Attribute} {attr first : Attribute}
    (same : first.name = attr.name) : attr.redefinedBy (first :: own) = first := by
  simp [redefinedBy, same]

theorem Attribute.redefinedBy_cons_of_ne {own : List Attribute} {attr first : Attribute}
    (differ : first.name ≠ attr.name) : attr.redefinedBy (first :: own) = attr.redefinedBy own := by
  simp [redefinedBy, differ]

/-- An attribute of a new name goes to the end. -/
theorem overrideAttribute_of_not_mem {attributes : List Attribute} {attr : Attribute}
    (isNew : attr.name ∉ attributes.map Attribute.name) :
    overrideAttribute attributes attr = attributes ++ [attr] := by
  induction attributes with
  | nil => rfl
  | cons inherited rest ih =>
    rw [List.map_cons, List.mem_cons, not_or] at isNew
    rw [overrideAttribute, if_neg (Ne.symm isNew.1), ih isNew.2, List.cons_append]

/-- An attribute of a name that is there takes its place. -/
theorem overrideAttribute_of_mem {attributes : List Attribute} {attr : Attribute}
    (distinct : (attributes.map Attribute.name).Nodup) (present : attr.name ∈ attributes.map Attribute.name) :
    overrideAttribute attributes attr = attributes.map (Attribute.redefinedBy [attr]) := by
  induction attributes with
  | nil => cases present
  | cons inherited rest ih =>
    obtain ⟨isNew, distinct⟩ := List.nodup_cons.mp distinct
    rw [overrideAttribute, List.map_cons]
    by_cases same : inherited.name = attr.name
    · have others : rest.map (Attribute.redefinedBy [attr]) = rest := by
        conv_rhs => rw [← List.map_id rest]
        refine List.map_congr_left fun other member => Attribute.redefinedBy_of_not_mem ?_
        rw [List.map_singleton, List.mem_singleton, ← same]
        rintro equal
        exact isNew (equal ▸ List.mem_map_of_mem member)
      rw [if_pos same, Attribute.redefinedBy_cons_of_eq same.symm, others]
    · have later := (List.mem_cons.mp present).resolve_left (Ne.symm same)
      rw [if_neg same, Attribute.redefinedBy_cons_of_ne (Ne.symm same), ih distinct later]
      rfl

/-- Overriding redefines what is inherited and adds the rest in its order. -/
theorem overrideAttributes_eq {inherited own : List Attribute} (distinct : (inherited.map Attribute.name).Nodup)
    (ownDistinct : (own.map Attribute.name).Nodup) :
    overrideAttributes inherited own =
      inherited.map (Attribute.redefinedBy own) ++
        own.filter fun attr => attr.name ∉ inherited.map Attribute.name := by
  induction own generalizing inherited with
  | nil => simp [overrideAttributes]
  | cons attr rest ih =>
    obtain ⟨isLast, ownDistinct⟩ := List.nodup_cons.mp ownDistinct
    change overrideAttributes (overrideAttribute inherited attr) rest = _
    rw [ih (nodup_overrideAttribute attr distinct) ownDistinct, names_overrideAttribute]
    by_cases present : attr.name ∈ inherited.map Attribute.name
    · rw [if_pos present, overrideAttribute_of_mem distinct present, List.filter_cons_of_neg (by simpa using present),
        List.map_map]
      congr 1
      refine List.map_congr_left fun other _ => ?_
      by_cases same : attr.name = other.name
      · rw [Function.comp_apply, Attribute.redefinedBy_cons_of_eq same, Attribute.redefinedBy_cons_of_eq same,
          Attribute.redefinedBy_of_not_mem isLast]
      · rw [Function.comp_apply, Attribute.redefinedBy_cons_of_ne same, Attribute.redefinedBy_cons_of_ne same,
          Attribute.redefinedBy_nil, id_eq]
    · rw [if_neg present, overrideAttribute_of_not_mem present, List.filter_cons_of_pos (by simpa using present),
        List.map_append, List.map_singleton, Attribute.redefinedBy_of_not_mem isLast, List.append_assoc,
        List.singleton_append]
      congr 1
      · refine List.map_congr_left fun other member => (Attribute.redefinedBy_cons_of_ne ?_).symm
        exact fun same => present (same ▸ List.mem_map_of_mem member)
      · congr 1
        refine List.filter_congr fun other member => ?_
        have differ : other.name ≠ attr.name := fun same => isLast (same ▸ List.mem_map_of_mem member)
        simp [differ]

/-- After overriding, an attribute is an own one or one that no own one redefines. -/
theorem mem_overrideAttributes_iff {inherited own : List Attribute} {attr : Attribute}
    (distinct : (inherited.map Attribute.name).Nodup) (ownDistinct : (own.map Attribute.name).Nodup) :
    attr ∈ overrideAttributes inherited own ↔
      attr ∈ own ∨ (attr ∈ inherited ∧ attr.name ∉ own.map Attribute.name) := by
  constructor
  · intro member
    by_cases redefined : attr.name ∈ own.map Attribute.name
    · obtain ⟨other, declares, same⟩ := List.mem_map.mp redefined
      have stored : other ∈ overrideAttributes inherited own := mem_overrideAttributes declares ownDistinct
      have injective := List.inj_on_of_nodup_map (nodup_overrideAttributes own distinct)
      obtain rfl := injective stored member same
      exact .inl declares
    · rcases mem_or_mem_of_mem_overrideAttributes member with before | declares
      · exact .inr ⟨before, redefined⟩
      · exact .inl declares
  · rintro (declares | ⟨before, kept⟩)
    · exact mem_overrideAttributes declares ownDistinct
    · exact mem_overrideAttributes_of_not_mem before kept

namespace Document

variable {document : Document} {name : String} {attributes : List Attribute} {attr : Attribute}

/-- Whether a class names another one as its parent. -/
def Derives (document : Document) (name parent : String) : Prop :=
  document.classParent? name = some parent

/-- What going up from a class comes to after the names in `seen`, with no bound on how far it is: the class and
its ancestors in front of the classes already found, or the fault that stops it. -/
inductive Ascends (document : Document) :
    List String → List ClassDefinition → String → Except SyntaxError (List ClassDefinition) → Prop
  | repeated {seen : List String} {found : List ClassDefinition} {name : String} (again : name ∈ seen) :
      Ascends document seen found name (.error (.inheritanceCycle name))
  | undefined {seen : List String} {found : List ClassDefinition} {name : String} (isNew : name ∉ seen)
      (missing : document.class? name = none) : Ascends document seen found name (.error (.undefinedClass name))
  | root {seen : List String} {found : List ClassDefinition} {name : String} {definition : ClassDefinition}
      (isNew : name ∉ seen) (defined : document.class? name = some definition) (ends : definition.parent? = none) :
      Ascends document seen found name (.ok (definition :: found))
  | child {seen : List String} {found : List ClassDefinition} {name parent : String} {definition : ClassDefinition}
      {outcome : Except SyntaxError (List ClassDefinition)} (isNew : name ∉ seen)
      (defined : document.class? name = some definition) (derives : definition.parent? = some parent)
      (rest : Ascends document (name :: seen) (definition :: found) parent outcome) :
      Ascends document seen found name outcome

/-- What the attributes of a class come to, with no bound on the number of its ancestors. -/
def Induces (document : Document) (name : String) (result : Except SyntaxError (List Attribute)) : Prop :=
  ∃ outcome, document.Ascends [] [] name outcome ∧
    result = outcome.map fun classes =>
      classes.foldl (fun attributes definition => overrideAttributes attributes definition.attributes) []

theorem derives_of_class? {parent : String} {definition : ClassDefinition}
    (defined : document.class? name = some definition) (derives : definition.parent? = some parent) :
    document.Derives name parent := by
  rw [Derives, classParent?, defined]
  exact derives

theorem unfound_lt_of_class? {seen : List String} {definition : ClassDefinition} (isNew : name ∉ seen)
    (defined : document.class? name = some definition) :
    (unfound document.classes.keys (name :: seen)).length < (unfound document.classes.keys seen).length :=
  unfound_cons_lt (mem_keys_of_class? defined) isNew

/-- The bounded walk is the unbounded one wherever the bound allows for every class that is not found yet. -/
theorem ascends_lineageFrom {fuel : Nat} {seen : List String} {found : List ClassDefinition}
    (enough : (unfound document.classes.keys seen).length ≤ fuel) :
    document.Ascends seen found name (document.lineageFrom fuel seen found name) := by
  fun_induction document.lineageFrom fuel seen found name with
  | case1 fuel seen found name again => exact .repeated (List.contains_iff_mem.mp again)
  | case2 fuel seen found name isNew missing => exact .undefined (by simpa using isNew) missing
  | case3 seen found name isNew definition fuel defined ends => exact .root (by simpa using isNew) defined ends
  | case4 seen found name isNew definition fuel defined parent derives ih =>
    have isNew : name ∉ seen := by simpa using isNew
    have less := unfound_lt_of_class? isNew defined
    exact .child isNew defined derives (ih (by omega))
  | case5 seen found name isNew definition defined =>
    -- The bound is never used up before a class that is new.
    have less := unfound_lt_of_class? (by simpa using isNew) defined
    omega

/-- Nothing else comes of going up. -/
theorem Ascends.eq_lineageFrom {fuel : Nat} {seen : List String} {found : List ClassDefinition}
    {outcome : Except SyntaxError (List ClassDefinition)} (walk : document.Ascends seen found name outcome)
    (enough : (unfound document.classes.keys seen).length ≤ fuel) :
    outcome = document.lineageFrom fuel seen found name := by
  induction walk generalizing fuel with
  | repeated again =>
    unfold lineageFrom
    simp [again]
  | undefined isNew missing =>
    unfold lineageFrom
    simp [isNew, missing]
  | root isNew defined ends =>
    have less := unfound_lt_of_class? isNew defined
    cases fuel with
    | zero => omega
    | succ fuel => simp [lineageFrom, isNew, defined, ends]
  | child isNew defined derives _ ih =>
    have less := unfound_lt_of_class? isNew defined
    cases fuel with
    | zero => omega
    | succ fuel =>
      have further := ih (Nat.le_of_lt_succ (Nat.lt_of_lt_of_le less enough))
      simp [lineageFrom, isNew, defined, derives, further]

theorem ascends_iff {outcome : Except SyntaxError (List ClassDefinition)} :
    document.Ascends [] [] name outcome ↔ outcome = document.lineage name := by
  have bounded : (unfound document.classes.keys []).length ≤ document.classes.length := by
    have atMost : (unfound document.classes.keys []).length ≤ document.classes.keys.length := List.length_filter_le ..
    rwa [Table.keys, List.length_map] at atMost
  constructor
  · exact fun walk => walk.eq_lineageFrom bounded
  · rintro rfl
    exact ascends_lineageFrom bounded

theorem induces_iff {result : Except SyntaxError (List Attribute)} :
    document.Induces name result ↔ result = document.inducedAttributes name := by
  simp only [Induces, ascends_iff, exists_eq_left]
  rfl

/-- Going up fails only at a class that is missing or that comes again. -/
theorem Ascends.exists_of_error {seen : List String} {found : List ClassDefinition} {error : SyntaxError}
    (walk : document.Ascends seen found name (.error error))
    (passed : ∀ other ∈ seen, TransGen document.Derives other name) :
    ∃ other, ReflTransGen document.Derives name other ∧
      ((error = .undefinedClass other ∧ document.class? other = none) ∨
        (error = .inheritanceCycle other ∧ TransGen document.Derives other other)) := by
  generalize failed : Except.error error = outcome at walk
  induction walk with
  | @repeated _ _ name again =>
    cases failed
    exact ⟨name, .refl, .inr ⟨rfl, passed name again⟩⟩
  | @undefined _ _ name _ missing =>
    cases failed
    exact ⟨name, .refl, .inl ⟨rfl, missing⟩⟩
  | root => cases failed
  | child _ defined derives _ ih =>
    have step := derives_of_class? defined derives
    obtain ⟨other, reaches, fault⟩ := ih (fun earlier member => by
      rcases List.mem_cons.mp member with rfl | before
      · exact .single step
      · exact (passed earlier before).tail step) failed
    exact ⟨other, .head step reaches, fault⟩

theorem exists_of_inducedAttributes_eq_error {error : SyntaxError}
    (failed : document.inducedAttributes name = .error error) :
    ∃ other, ReflTransGen document.Derives name other ∧
      ((error = .undefinedClass other ∧ document.class? other = none) ∨
        (error = .inheritanceCycle other ∧ TransGen document.Derives other other)) := by
  obtain ⟨outcome, walk, result⟩ := induces_iff.mpr failed.symm
  cases outcome with
  | error fault =>
    cases result
    exact walk.exists_of_error nofun
  | ok classes => cases result

/-- The attributes of a class cannot be told exactly if going up meets a class that is missing or comes again. -/
theorem exists_inducedAttributes_error_iff :
    (∃ error, document.inducedAttributes name = .error error) ↔
      (∃ other, ReflTransGen document.Derives name other ∧ document.class? other = none) ∨
        ∃ other, ReflTransGen document.Derives name other ∧ TransGen document.Derives other other := by
  constructor
  · rintro ⟨error, failed⟩
    obtain ⟨other, reaches, ⟨_, missing⟩ | ⟨_, again⟩⟩ := exists_of_inducedAttributes_eq_error failed
    · exact .inl ⟨other, reaches, missing⟩
    · exact .inr ⟨other, reaches, again⟩
  · intro fault
    cases induced : document.inducedAttributes name with
    | error error => exact ⟨error, rfl⟩
    | ok attributes =>
      obtain ⟨passed, last, chain, within⟩ := exists_inducedAttributes_iff.mp ⟨attributes, induced⟩
      rcases fault with ⟨other, reaches, missing⟩ | ⟨other, reaches, again⟩
      · obtain ⟨definition, defined⟩ := exists_class? (within other (chain.mem_of_reflTransGen reaches))
        exact absurd (missing.symm.trans defined) nofun
      · exact absurd again (chain.not_transGen (chain.mem_of_reflTransGen reaches))

/-- The attributes that a class has from its parent. -/
def inheritedAttributes (document : Document) (definition : ClassDefinition) :
    Except SyntaxError (List Attribute) :=
  match definition.parent? with
  | none => .ok []
  | some parent => document.inducedAttributes parent

/-- Whether an attribute is declared by the nearest class, from a class upwards, that declares its name. -/
inductive Carries (document : Document) : String → Attribute → Prop
  | own {name : String} {definition : ClassDefinition} {attr : Attribute}
      (defined : document.class? name = some definition) (declares : attr ∈ definition.attributes) :
      Carries document name attr
  | inherited {name parent : String} {definition : ClassDefinition} {attr : Attribute}
      (defined : document.class? name = some definition)
      (silent : attr.name ∉ definition.attributes.map Attribute.name) (derives : definition.parent? = some parent)
      (above : Carries document parent attr) : Carries document name attr

theorem HasLineage.unique {line other : List ClassDefinition} (left : document.HasLineage name line)
    (right : document.HasLineage name other) : line = other := by
  induction left generalizing other with
  | root defined ends =>
    cases right with
    | root known _ =>
      obtain rfl := Option.some.inj (defined.symm.trans known)
      rfl
    | child known derives _ =>
      obtain rfl := Option.some.inj (defined.symm.trans known)
      exact absurd (ends.symm.trans derives) nofun
  | child defined derives _ ih =>
    cases right with
    | root known ends =>
      obtain rfl := Option.some.inj (defined.symm.trans known)
      exact absurd (ends.symm.trans derives) nofun
    | child known derivesAgain rest =>
      obtain rfl := Option.some.inj (defined.symm.trans known)
      obtain rfl := Option.some.inj (derives.symm.trans derivesAgain)
      rw [ih rest]

/-- The attributes of a class that has a lineage come from it. -/
theorem HasLineage.inducedAttributes_eq {line : List ClassDefinition} (has : document.HasLineage name line) :
    document.inducedAttributes name =
      .ok (line.foldl (fun found definition => overrideAttributes found definition.attributes) []) := by
  obtain ⟨attributes, induced⟩ := exists_inducedAttributes_iff.mpr has.exists_chainTo
  obtain ⟨other, hasToo, rfl⟩ := exists_lineage_of_inducedAttributes induced
  rw [induced, has.unique hasToo]

/-- A class overrides what it has from its parent with what it declares. -/
theorem exists_inheritedAttributes (induced : document.inducedAttributes name = .ok attributes) :
    ∃ definition inherited, document.class? name = some definition ∧
      document.inheritedAttributes definition = .ok inherited ∧
      attributes = overrideAttributes inherited definition.attributes := by
  obtain ⟨line, has, rfl⟩ := exists_lineage_of_inducedAttributes induced
  cases has with
  | @root _ definition defined ends =>
    exact ⟨definition, [], defined, by rw [inheritedAttributes, ends], rfl⟩
  | @child _ parent definition ancestors defined derives above =>
    refine ⟨definition, _, defined, ?_, List.foldl_append⟩
    rw [inheritedAttributes, derives]
    exact above.inducedAttributes_eq

theorem nodup_inheritedAttributes {definition : ClassDefinition} {inherited : List Attribute}
    (inherits : document.inheritedAttributes definition = .ok inherited) :
    (inherited.map Attribute.name).Nodup := by
  rw [inheritedAttributes] at inherits
  split at inherits
  · cases inherits
    exact List.nodup_nil
  · exact nodup_inducedAttributes inherits

theorem carries_iff {definition : ClassDefinition} (defined : document.class? name = some definition) :
    document.Carries name attr ↔
      attr ∈ definition.attributes ∨
        (attr.name ∉ definition.attributes.map Attribute.name ∧
          ∃ parent, definition.parent? = some parent ∧ document.Carries parent attr) := by
  constructor
  · rintro (⟨known, declares⟩ | ⟨known, silent, derives, above⟩)
    · obtain rfl := Option.some.inj (defined.symm.trans known)
      exact .inl declares
    · obtain rfl := Option.some.inj (defined.symm.trans known)
      exact .inr ⟨silent, _, derives, above⟩
  · rintro (declares | ⟨silent, parent, derives, above⟩)
    · exact .own defined declares
    · exact .inherited defined silent derives above

theorem exists_mem_inducedAttributes_iff (distinct : document.IsDistinct) {definition : ClassDefinition}
    (known : document.class? name = some definition) (induced : document.inducedAttributes name = .ok attributes) :
    ∃ inherited, document.inheritedAttributes definition = .ok inherited ∧
      ∀ attr, attr ∈ attributes ↔ attr ∈ definition.attributes ∨
        (attr ∈ inherited ∧ attr.name ∉ definition.attributes.map Attribute.name) := by
  obtain ⟨definition, inherited, defined, inherits, rfl⟩ := exists_inheritedAttributes induced
  obtain rfl := Option.some.inj (known.symm.trans defined)
  have ownDistinct := distinct _ (Table.mem_values_of_get? defined)
  refine ⟨inherited, inherits, fun attr => ?_⟩
  exact mem_overrideAttributes_iff (nodup_inheritedAttributes inherits) ownDistinct

theorem HasLineage.mem_inducedAttributes_iff (distinct : document.IsDistinct) {line : List ClassDefinition}
    (has : document.HasLineage name line) (induced : document.inducedAttributes name = .ok attributes) :
    attr ∈ attributes ↔ document.Carries name attr := by
  induction has generalizing attributes with
  | root defined ends =>
    obtain ⟨inherited, inherits, membership⟩ := exists_mem_inducedAttributes_iff distinct defined induced
    rw [inheritedAttributes, ends] at inherits
    cases inherits
    simp [membership, carries_iff defined, ends]
  | child defined derives _ ih =>
    obtain ⟨inherited, inherits, membership⟩ := exists_mem_inducedAttributes_iff distinct defined induced
    rw [inheritedAttributes, derives] at inherits
    simp [membership, carries_iff defined, derives, ih inherits, and_comm]

/-- A class has the attributes that are carried down to it. -/
theorem mem_inducedAttributes_iff (distinct : document.IsDistinct)
    (induced : document.inducedAttributes name = .ok attributes) :
    attr ∈ attributes ↔ document.Carries name attr := by
  obtain ⟨line, has, _⟩ := exists_lineage_of_inducedAttributes induced
  exact has.mem_inducedAttributes_iff distinct induced

/-- Following the parents of a class comes to an end, whatever the document. It fails exactly if it meets a class
that is missing or that comes again. Otherwise the attributes are those of the parent, each redefined in its place
where the class declares the name again, with the other ones of the class behind them. Their names are distinct,
and under each name stands what the nearest class that declares it declares. -/
theorem inducedAttributes_follow_parents (produced : document.IsProduced) (name : String) :
    (∀ result, document.Induces name result ↔ result = document.inducedAttributes name) ∧
    ((∃ error, document.inducedAttributes name = .error error) ↔
      (∃ other, ReflTransGen document.Derives name other ∧ document.class? other = none) ∨
        ∃ other, ReflTransGen document.Derives name other ∧ TransGen document.Derives other other) ∧
    ∀ attributes, document.inducedAttributes name = .ok attributes →
      (∃ definition inherited, document.class? name = some definition ∧
        document.inheritedAttributes definition = .ok inherited ∧
        attributes = inherited.map (Attribute.redefinedBy definition.attributes) ++
          definition.attributes.filter fun attr => attr.name ∉ inherited.map Attribute.name) ∧
      (attributes.map Attribute.name).Nodup ∧
      ∀ attr, attr ∈ attributes ↔ document.Carries name attr := by
  have distinct := produced.isDistinct
  refine ⟨fun _ => induces_iff, exists_inducedAttributes_error_iff, ?_⟩
  intro attributes induced
  refine ⟨?_, nodup_inducedAttributes induced, fun attr => mem_inducedAttributes_iff distinct induced⟩
  obtain ⟨definition, inherited, defined, inherits, overridden⟩ := exists_inheritedAttributes induced
  have ownDistinct := distinct _ (Table.mem_values_of_get? defined)
  rw [overrideAttributes_eq (nodup_inheritedAttributes inherits) ownDistinct] at overridden
  exact ⟨definition, inherited, defined, inherits, overridden⟩

/-- A schema whose classes redefine attributes at two levels. -/
def trucksText : String :=
  "{id: t, name: t, classes: {Truck: {is_a: Car, attributes: {load: , name: {range: string}}},
    Car: {is_a: Thing, attributes: {note: {range: float}}}, Thing: {attributes: {name: , note: }}}}"

/-- The document of that schema. -/
def trucks : Document :=
  let plain (name : String) : Attribute := ⟨name, "", false, false, false, none, none⟩
  { blank with
    id := "t"
    name := "t"
    classes :=
      [("Truck", ⟨"Truck", none, some "Car", none, [plain "load", { plain "name" with range := "string" }]⟩),
       ("Car", ⟨"Car", none, some "Thing", none, [{ plain "note" with range := "float" }]⟩),
       ("Thing", ⟨"Thing", none, none, none, [plain "name", plain "note"]⟩)] }

theorem inducedAttributes_follow_parents_trucks :
    parse trucksText = .ok trucks ∧
      (∃ attributes, trucks.inducedAttributes "Truck" = .ok attributes ∧
        attributes.map (fun attr => (attr.name, attr.range)) =
          [("name", "string"), ("note", "float"), ("load", "")] ∧
        ∀ attr ∈ attributes, trucks.Carries "Truck" attr) ∧
      ∃ error, trucks.inducedAttributes "Bus" = .error error := by
  have parsed : parse trucksText = .ok trucks := by decide +kernel
  obtain ⟨_, _, ofTruck⟩ := inducedAttributes_follow_parents (.parsed parsed) "Truck"
  obtain ⟨_, fails_iff, _⟩ := inducedAttributes_follow_parents (.parsed parsed) "Bus"
  refine ⟨parsed, ?_, fails_iff.mpr (.inl ⟨"Bus", .refl, rfl⟩)⟩
  obtain ⟨attributes, induced⟩ : ∃ attributes, trucks.inducedAttributes "Truck" = .ok attributes :=
    exists_eq_ok_of_isOk (by decide +kernel)
  obtain ⟨⟨definition, inherited, defined, inherits, rfl⟩, _, carries⟩ := ofTruck attributes induced
  refine ⟨_, induced, ?_, fun attr member => (carries attr).mp member⟩
  have evaluated : (trucks.inducedAttributes "Truck").map (·.map fun attr => (attr.name, attr.range)) =
      .ok [("name", "string"), ("note", "float"), ("load", "")] := by decide +kernel
  rw [induced] at evaluated
  exact Except.ok.inj evaluated

end Document

end ClassSchema
