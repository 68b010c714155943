import ClassSchema.Compilation
import ClassSchema.Proofs.Inheritance
import ClassSchema.Proofs.Tables

/-! # Field tables and constraints

The object model and the validation document of a compilation come from one resolver. So they have the
same classes, and each property constraint says what the field of its name says. The field tables are
well formed: a class is stored under its own name, the names of its fields are distinct, and the range of
a field is a scalar kind or a class of the model.
-/

namespace ClassSchema

@[simp] theorem mapError_ok {ε ε' α : Type} (f : ε → ε') (value : α) :
    (Except.ok value : Except ε α).mapError f = .ok value := rfl

@[simp] theorem mapError_error {ε ε' α : Type} (f : ε → ε') (error : ε) :
    (Except.error error : Except ε α).mapError f = .error (f error) := rfl

theorem exists_eq_ok_of_isOk {ε α : Type} {result : Except ε α} (success : result.isOk = true) :
    ∃ value, result = .ok value := by
  cases result with
  | error error => simp [Except.isOk, Except.toBool] at success
  | ok value => exact ⟨value, rfl⟩

/-- What a successful `mapM` did to each element. -/
theorem forall₂_of_mapM_ok {ε α β : Type} {step : α → Except ε β} {items : List α} {results : List β}
    (success : items.mapM step = .ok results) :
    List.Forall₂ (fun item result => step item = .ok result) items results := by
  induction items generalizing results with
  | nil =>
    simp only [List.mapM_nil, pure, Except.pure, Except.ok.injEq] at success
    subst success
    exact .nil
  | cons item rest ih =>
    simp only [List.mapM_cons, bind, Except.bind, pure, Except.pure] at success
    cases first : step item with
    | error error => simp [first] at success
    | ok result =>
      cases others : rest.mapM step with
      | error error => simp [first, others] at success
      | ok tail =>
        simp only [first, others, Except.ok.injEq] at success
        subst success
        exact .cons first (ih others)

/-- Every result of a successful `mapM` comes from an item. -/
theorem exists_of_mem_mapM {ε α β : Type} {step : α → Except ε β} {items : List α} {results : List β}
    (success : items.mapM step = .ok results) {result : β} (member : result ∈ results) :
    ∃ item ∈ items, step item = .ok result :=
  exists_of_mem_forall₂ (forall₂_of_mapM_ok success) member

namespace RangeResolver

variable {resolver : RangeResolver}

/-- A range that was looked up is a scalar kind or a class of the document. -/
theorem has_of_lookup {name owner className : String}
    (found : resolver.lookup name owner = .ok (.instanceOf className)) :
    resolver.document.classes.has className = true := by
  unfold lookup at found
  split at found
  · cases found
  · split at found
    · rename_i present
      cases found
      exact present
    · cases found

theorem has_of_resolveAttribute {owner className : String} {attr : Attribute}
    {resolved : ResolvedAttribute} (success : resolver.resolveAttribute owner attr = .ok resolved)
    (range : resolved.range = .instanceOf className) :
    resolver.document.classes.has className = true := by
  unfold resolveAttribute at success
  split at success
  · rename_i found
    cases success
    simp only at range
    unfold resolve at found
    split at found
    · rw [range] at found
      exact has_of_lookup found
    · cases found
  · cases success

theorem attr_of_resolveAttribute {owner : String} {attr : Attribute} {resolved : ResolvedAttribute}
    (success : resolver.resolveAttribute owner attr = .ok resolved) : resolved.attr = attr := by
  unfold resolveAttribute at success
  split at success <;> cases success
  rfl

theorem resolveClass_eq_ok {className : String} {resolved : List ResolvedAttribute}
    (success : resolver.resolveClass className = .ok resolved) :
    ∃ attributes, resolver.document.inducedAttributes className = .ok attributes ∧
      List.Forall₂ (fun attr result => resolver.resolveAttribute className attr = .ok result)
        attributes resolved := by
  simp only [resolveClass, bind, Except.bind] at success
  cases induced : resolver.document.inducedAttributes className with
  | error error => simp [induced] at success
  | ok attributes =>
    simp only [induced, mapError_ok] at success
    exact ⟨attributes, rfl, forall₂_of_mapM_ok success⟩

/-- The attributes that are resolved are the induced ones. -/
theorem inducedAttributes_of_resolveClass {className : String} {resolved : List ResolvedAttribute}
    (success : resolver.resolveClass className = .ok resolved) :
    resolver.document.inducedAttributes className = .ok (resolved.map ResolvedAttribute.attr) := by
  obtain ⟨attributes, induced, each⟩ := resolveClass_eq_ok success
  have same : attributes.map id = resolved.map ResolvedAttribute.attr := by
    apply map_eq_map_of_forall₂ _ each
    intro attr result success
    exact (attr_of_resolveAttribute success).symm
  rw [← same, List.map_id]
  exact induced

/-- The resolved attributes of a class have distinct names. -/
theorem nodup_resolveClass {className : String} {resolved : List ResolvedAttribute}
    (success : resolver.resolveClass className = .ok resolved) :
    (resolved.map fun result => result.attr.name).Nodup := by
  have distinct := Document.nodup_inducedAttributes (inducedAttributes_of_resolveClass success)
  rwa [List.map_map] at distinct

/-- The classes that the resolved attributes of a class refer to are classes of the document. -/
theorem has_of_resolveClass {className target : String} {resolved : List ResolvedAttribute}
    (success : resolver.resolveClass className = .ok resolved) {result : ResolvedAttribute}
    (member : result ∈ resolved) (range : result.range = .instanceOf target) :
    resolver.document.classes.has target = true := by
  obtain ⟨attributes, _, each⟩ := resolveClass_eq_ok success
  obtain ⟨attr, _, one⟩ := exists_of_mem_forall₂ each member
  exact has_of_resolveAttribute one range

/-- The resolver of a document is about that document. -/
theorem document_of_ofDocument {document : Document}
    (success : RangeResolver.ofDocument document = .ok resolver) : resolver.document = document := by
  simp only [RangeResolver.ofDocument, bind, Except.bind, pure, Except.pure] at success
  split at success
  · cases success
  · split at success
    · cases success
    · cases success
      rfl

end RangeResolver

/-- A table that is built entry by entry holds, under each name, what the first entry became. -/
theorem Table.get?_of_mapM_ok {ε α β : Type} {step : String × α → Except ε (String × β)}
    {table : Table α} {results : Table β}
    (keeps : ∀ entry result, step entry = .ok result → result.1 = entry.1)
    (success : table.mapM step = .ok results) (name : String) :
    match table.get? name with
    | none => results.get? name = none
    | some value => ∃ result, step (name, value) = .ok (name, result) ∧ results.get? name = some result := by
  have each := forall₂_of_mapM_ok success
  clear success
  induction each with
  | nil => rfl
  | @cons entry result rest others one _ ih =>
    obtain ⟨key, value⟩ := entry
    obtain ⟨resultKey, made⟩ := result
    obtain rfl : resultKey = key := keeps _ _ one
    by_cases same : resultKey = name
    · subst same
      simp only [Table.get?_cons, if_true]
      exact ⟨made, one, rfl⟩
    · simpa only [Table.get?_cons, same, if_false] using ih

/-- The constraint that says what a field says. -/
def Field.constraint (field : Field) : PropertyConstraint where
  name := field.name
  range := field.range
  multivalued := field.multivalued
  required := field.required
  description? := field.description?

/-- The definition that says what a field table says. -/
def ClassModel.constraints (model : ClassModel) : ClassConstraints :=
  ⟨model.name, model.description?, model.fields.map Field.constraint⟩

/-- What holds of the field tables of every document. -/
structure ObjectModel.WellFormed (model : ObjectModel) : Prop where
  /-- A class is stored under its own name. -/
  named : ∀ {name classModel}, model.class? name = some classModel → classModel.name = name
  /-- The fields of a class have distinct names. -/
  distinct : ∀ {name classModel}, model.class? name = some classModel →
    (classModel.fields.map Field.name).Nodup
  /-- The class that a field refers to is in the model. -/
  closed : ∀ {name classModel field target}, model.class? name = some classModel →
    field ∈ classModel.fields → field.range = .instanceOf target → (model.class? target).isSome = true

/-- A table that is built from the resolved attributes of classes. -/
private theorem get?_of_resolved {β : Type} (resolver : RangeResolver) {classes : Table ClassDefinition}
    {results : Table β} (make : String → ClassDefinition → List ResolvedAttribute → β)
    (success : (classes.mapM fun entry => do
      let resolved ← resolver.resolveClass entry.1
      return (entry.1, make entry.1 entry.2 resolved)) = .ok results) (name : String) :
    match classes.get? name with
    | none => results.get? name = none
    | some definition => ∃ resolved, resolver.resolveClass name = .ok resolved ∧
        results.get? name = some (make name definition resolved) := by
  have step {key : String} {definition : ClassDefinition} {result : String × β}
      (made : (do let resolved ← resolver.resolveClass key
                  return (key, make key definition resolved)) = Except.ok result) :
      ∃ resolved, resolver.resolveClass key = .ok resolved ∧ result = (key, make key definition resolved) := by
    simp only [bind, Except.bind, pure, Except.pure] at made
    split at made
    · cases made
    · rename_i resolved success
      cases made
      exact ⟨resolved, success, rfl⟩
  have stored := Table.get?_of_mapM_ok (fun entry result made => by
    obtain ⟨_, _, rfl⟩ := step made
    rfl) success name
  cases defined : classes.get? name with
  | none =>
    rw [defined] at stored
    exact stored
  | some definition =>
    rw [defined] at stored
    obtain ⟨result, made, stored⟩ := stored
    obtain ⟨resolved, success, same⟩ := step made
    obtain rfl := (Prod.mk.inj same).2
    exact ⟨resolved, success, stored⟩

/-- What the model of a document has under each name. -/
theorem ObjectModel.class?_of_ofDocument {document : Document} {model : ObjectModel}
    (success : ObjectModel.ofDocument document = .ok model) :
    ∃ resolver, RangeResolver.ofDocument document = .ok resolver ∧ ∀ name,
      match document.classes.get? name with
      | none => model.class? name = none
      | some definition => ∃ resolved, resolver.resolveClass name = .ok resolved ∧
          model.class? name = some ⟨name, definition.description?, resolved.map Field.ofAttribute⟩ := by
  simp only [ObjectModel.ofDocument, bind, Except.bind, pure, Except.pure] at success
  cases resolved : RangeResolver.ofDocument document with
  | error error => simp [resolved] at success
  | ok resolver =>
    simp only [resolved] at success
    split at success
    · cases success
    · rename_i classes built
      cases success
      exact ⟨resolver, rfl, get?_of_resolved resolver (fun name definition resolved =>
        ClassModel.mk name definition.description? (resolved.map Field.ofAttribute)) built⟩

/-- What the validation document of a document has under each name. -/
theorem ValidationDocument.class?_of_ofDocument {document : Document}
    {validation : ValidationDocument} (success : ValidationDocument.ofDocument document = .ok validation) :
    ∃ resolver, RangeResolver.ofDocument document = .ok resolver ∧ ∀ name,
      match document.classes.get? name with
      | none => validation.class? name = none
      | some definition => ∃ resolved, resolver.resolveClass name = .ok resolved ∧
          validation.class? name =
            some ⟨name, definition.description?, resolved.map PropertyConstraint.ofAttribute⟩ := by
  simp only [ValidationDocument.ofDocument, bind, Except.bind, pure, Except.pure] at success
  cases resolved : RangeResolver.ofDocument document with
  | error error => simp [resolved] at success
  | ok resolver =>
    simp only [resolved] at success
    split at success
    · cases success
    · rename_i classes built
      cases success
      exact ⟨resolver, rfl, get?_of_resolved resolver (fun name definition resolved =>
        ClassConstraints.mk name definition.description? (resolved.map PropertyConstraint.ofAttribute)) built⟩

/-- The field tables of a document are well formed. -/
theorem ObjectModel.wellFormed_of_ofDocument {document : Document} {model : ObjectModel}
    (success : ObjectModel.ofDocument document = .ok model) : model.WellFormed := by
  obtain ⟨resolver, resolverOf, classes⟩ := class?_of_ofDocument success
  have known {name : String} {classModel : ClassModel} (found : model.class? name = some classModel) :
      ∃ definition resolved, document.classes.get? name = some definition ∧
        resolver.resolveClass name = .ok resolved ∧
        classModel = ⟨name, definition.description?, resolved.map Field.ofAttribute⟩ := by
    have stored := classes name
    cases defined : document.classes.get? name with
    | none => simp [defined, found] at stored
    | some definition =>
      simp only [defined, found, Option.some.injEq] at stored
      obtain ⟨resolved, success, same⟩ := stored
      exact ⟨definition, resolved, rfl, success, same⟩
  constructor
  · intro name classModel found
    obtain ⟨definition, resolved, _, _, rfl⟩ := known found
    rfl
  · intro name classModel found
    obtain ⟨definition, resolved, _, success, rfl⟩ := known found
    have distinct := RangeResolver.nodup_resolveClass success
    rw [List.map_map]
    exact distinct
  · intro name classModel field target found member range
    obtain ⟨definition, resolved, _, success, rfl⟩ := known found
    obtain ⟨result, present, rfl⟩ := List.mem_map.mp member
    have defined := RangeResolver.has_of_resolveClass success present range
    rw [RangeResolver.document_of_ofDocument resolverOf] at defined
    have stored := classes target
    obtain ⟨targetDefinition, atTarget⟩ := Option.isSome_iff_exists.mp defined
    simp only [atTarget] at stored
    obtain ⟨_, _, stored⟩ := stored
    rw [stored]
    rfl

/-- The classes of a model are those of its document. -/
theorem ObjectModel.class?_isSome_iff {document : Document} {model : ObjectModel}
    (success : ObjectModel.ofDocument document = .ok model) (name : String) :
    (model.class? name).isSome = true ↔ name ∈ document.classes.keys := by
  obtain ⟨resolver, _, classes⟩ := class?_of_ofDocument success
  have stored := classes name
  rw [← Table.has_iff_mem_keys, Table.has]
  cases defined : document.classes.get? name with
  | none =>
    simp only [defined] at stored
    rw [stored]
    rfl
  | some definition =>
    simp only [defined] at stored
    obtain ⟨_, _, stored⟩ := stored
    rw [stored]
    rfl

/-- The two artifacts of one document have the same classes and say the same of each. -/
theorem ValidationDocument.class?_eq_constraints {document : Document} {model : ObjectModel}
    {validation : ValidationDocument} (modelled : ObjectModel.ofDocument document = .ok model)
    (constrained : ValidationDocument.ofDocument document = .ok validation) (name : String) :
    validation.class? name = (model.class? name).map ClassModel.constraints := by
  obtain ⟨resolver, resolverOf, classes⟩ := ObjectModel.class?_of_ofDocument modelled
  obtain ⟨other, otherOf, definitions⟩ := class?_of_ofDocument constrained
  obtain rfl : resolver = other := Except.ok.inj (resolverOf.symm.trans otherOf)
  have inModel := classes name
  have inDocument := definitions name
  cases defined : document.classes.get? name with
  | none =>
    simp only [defined] at inModel inDocument
    rw [inModel, inDocument]
    rfl
  | some definition =>
    simp only [defined] at inModel inDocument
    obtain ⟨resolved, success, inModel⟩ := inModel
    obtain ⟨others, same, inDocument⟩ := inDocument
    obtain rfl : resolved = others := Except.ok.inj (success.symm.trans same)
    rw [inModel, inDocument]
    simp only [Option.map_some, ClassModel.constraints, List.map_map]
    rfl

namespace Compilation

variable {settings : Settings} {document : Document} {compilation : Compilation}

theorem parts_of_ofDocument (compiled : ofDocument settings document = .ok compilation) :
    ObjectModel.ofDocument document = .ok compilation.model ∧
      ValidationDocument.ofDocument document = .ok compilation.validation := by
  simp only [ofDocument, bind, Except.bind, pure, Except.pure] at compiled
  split at compiled
  · cases compiled
  · split at compiled
    · cases compiled
    · split at compiled
      · cases compiled
      · cases compiled
        exact ⟨‹_›, ‹_›⟩

end Compilation

/-- A person has a name, perhaps an age, any number of nicknames and perhaps a friend. -/
def Document.people : Document where
  id := "https://example.org/people"
  name := "people"
  description? := none
  defaultPrefix? := none
  prefixes := []
  imports := []
  resolvedImports := []
  defaultRange? := none
  types := []
  classes := [("Person", ⟨"Person", none, none, none,
    [⟨"name", "string", false, true, false, none, none⟩, ⟨"age", "integer", false, false, false, none, none⟩,
     ⟨"nicknames", "string", true, false, false, none, none⟩,
     ⟨"friend", "Person", false, false, false, none, none⟩]⟩)]

/-- The field table of a person. -/
def ClassModel.person : ClassModel :=
  ⟨"Person", none,
    [⟨"name", .scalar .string, false, true, false, none⟩, ⟨"age", .scalar .integer, false, false, false, none⟩,
     ⟨"nicknames", .scalar .string, true, false, false, none⟩,
     ⟨"friend", .instanceOf "Person", false, false, false, none⟩]⟩

theorem Compilation.exists_people : ∃ compilation,
    Compilation.ofDocument {} .people = .ok compilation ∧
      compilation.model.class? "Person" = some .person := by
  have success : (Compilation.ofDocument {} .people).isOk = true := by decide +kernel
  obtain ⟨compilation, compiled⟩ := exists_eq_ok_of_isOk success
  have modelled : ((ObjectModel.ofDocument .people).toOption.bind fun model => model.class? "Person") =
      some .person := by decide +kernel
  rw [(parts_of_ofDocument compiled).1] at modelled
  exact ⟨compilation, compiled, modelled⟩

end ClassSchema
