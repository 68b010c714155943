import Mathlib.Data.List.Nodup
import ClassSchema.Proofs.Agreement
import ClassSchema.Proofs.Covering
import ClassSchema.Proofs.ReferencePaths

/-! # Artifacts of one document

The object model, the semantic graph and the validation document are made class by class from one document,
each for itself. They agree on every attribute: they have the same classes and in each class the same
attributes, in the same order, and each attribute has one kind or one class, is required in all of them or in
none, and takes several values in all of them or in none. The validation document says so in its JSON too.
-/

namespace ClassSchema

section Generators

/-- A sequence of steps succeeds exactly if each step does. -/
theorem mapM_eq_ok_iff {ε α β : Type} {step : α → Except ε β} {items : List α} {results : List β} :
    items.mapM step = .ok results ↔ List.Forall₂ (fun item result => step item = .ok result) items results := by
  constructor
  · exact forall₂_of_mapM_ok
  · intro each
    induction each with
    | nil => rfl
    | cons first _ ih =>
      rw [List.mapM_cons, first, ih]
      rfl

theorem RangeResolver.resolveClass_eq_ok_iff {resolver : RangeResolver} {name : String}
    {resolved : List ResolvedAttribute} :
    resolver.resolveClass name = .ok resolved ↔
      ∃ attributes, resolver.document.inducedAttributes name = .ok attributes ∧
        List.Forall₂ (fun attr result => resolver.resolveAttribute name attr = .ok result)
          attributes resolved := by
  constructor
  · exact resolveClass_eq_ok
  · rintro ⟨attributes, induced, each⟩
    rw [resolveClass, induced, mapError_ok]
    exact mapM_eq_ok_iff.mpr each

theorem ObjectModel.ofDocument_eq_ok_iff {document : Document} {model : ObjectModel} :
    ofDocument document = .ok model ↔
      ∃ resolver, RangeResolver.ofDocument document = .ok resolver ∧
      ∃ classes, List.Forall₂ (fun entry result => ∃ resolved, resolver.resolveClass entry.1 = .ok resolved ∧
          (entry.1, ClassModel.mk entry.1 entry.2.description? (resolved.map Field.ofAttribute)) = result)
          document.classes classes ∧
        model = ⟨document.name, classes⟩ := by
  simp only [ofDocument, classModel, bind_eq_ok_iff, mapM_eq_ok_iff, pure, Except.pure, Except.ok.injEq,
    eq_comm (a := model)]

theorem ValidationDocument.ofDocument_eq_ok_iff {document : Document} {validation : ValidationDocument} :
    ofDocument document = .ok validation ↔
      ∃ resolver, RangeResolver.ofDocument document = .ok resolver ∧
      ∃ classes, List.Forall₂ (fun entry result => ∃ resolved, resolver.resolveClass entry.1 = .ok resolved ∧
          (entry.1, ClassConstraints.mk entry.1 entry.2.description?
            (resolved.map PropertyConstraint.ofAttribute)) = result) document.classes classes ∧
        validation = ⟨document.id, document.name, document.description?, classes⟩ := by
  simp only [ofDocument, classConstraints, bind_eq_ok_iff, mapM_eq_ok_iff, pure, Except.pure, Except.ok.injEq,
    eq_comm (a := validation)]

theorem Shape.ofClass_eq_ok_iff {resolver : RangeResolver} {namespaceUri name : String}
    {definition : ClassDefinition} {shape : Shape} :
    ofClass resolver namespaceUri name definition = .ok shape ↔
      ∃ iri, resolver.document.iri namespaceUri definition.uri? name = .ok iri ∧
      ∃ resolved, resolver.resolveClass name = .ok resolved ∧
      ∃ properties, List.Forall₂ (fun attr property =>
          ShapeProperty.ofAttribute resolver.document namespaceUri attr = .ok property) resolved properties ∧
        shape = ⟨name, iri, definition.description?, properties⟩ := by
  simp only [ofClass, bind_eq_ok_iff, mapM_eq_ok_iff, pure, Except.pure, Except.ok.injEq, eq_comm (a := shape)]

theorem SchemaGraph.ofDocument_eq_ok_iff {document : Document} {graph : SchemaGraph} :
    ofDocument document = .ok graph ↔
      ∃ resolver, RangeResolver.ofDocument document = .ok resolver ∧
      ∃ namespaceUri, document.namespaceUri = .ok namespaceUri ∧
      ∃ shapes, List.Forall₂ (fun entry result =>
          ∃ shape, Shape.ofClass resolver namespaceUri entry.1 entry.2 = .ok shape ∧ (entry.1, shape) = result)
          document.classes shapes ∧
        graph = ⟨document.id, namespaceUri, document.prefixes, shapes⟩ := by
  simp only [ofDocument, bind_eq_ok_iff, mapM_eq_ok_iff, pure, Except.pure, Except.ok.injEq,
    eq_comm (a := graph)]

theorem Compilation.ofDocument_eq_ok_iff {settings : Settings} {document : Document}
    {compilation : Compilation} :
    ofDocument settings document = .ok compilation ↔
      ∃ model, ObjectModel.ofDocument document = .ok model ∧
      ∃ graph, SchemaGraph.ofDocument document = .ok graph ∧
      ∃ validation, ValidationDocument.ofDocument document = .ok validation ∧
        compilation = ⟨settings, document, model, graph, validation⟩ := by
  simp only [ofDocument, bind_eq_ok_iff, pure, Except.pure, Except.ok.injEq, eq_comm (a := compilation)]

end Generators

section Agreeing

/-- Whether tables have the same names in the same order, each with values that are related. -/
def Table.Matches {α β : Type} (relates : α → β → Prop) (left : Table α) (right : Table β) : Prop :=
  List.Forall₂ (fun one other => one.1 = other.1 ∧ relates one.2 other.2) left right

/-- Whether a property of a shape says of an attribute what a field says. -/
structure ShapeProperty.Agrees (property : ShapeProperty) (field : Field) : Prop where
  name : property.name = field.name
  kind? : property.datatype.kind? = field.range.kind?
  className? : property.datatype.className? = field.range.className?
  minCount : property.minCount = if field.required then 1 else 0
  maxCount? : property.maxCount? = if field.multivalued then none else some 1

/-- Whether a shape has a property for each field of a class, in their order. -/
structure Shape.Agrees (shape : Shape) (model : ClassModel) : Prop where
  name : shape.name = model.name
  properties : List.Forall₂ ShapeProperty.Agrees shape.properties model.fields

/-- Whether a property constraint says of an attribute what a field says. -/
structure PropertyConstraint.Agrees (constraint : PropertyConstraint) (field : Field) : Prop where
  name : constraint.name = field.name
  kind? : constraint.range.kind? = field.range.kind?
  className? : constraint.range.className? = field.range.className?
  required : constraint.required = field.required
  multivalued : constraint.multivalued = field.multivalued

/-- Whether the constraints of a class have one for each of its fields, in their order. -/
structure ClassConstraints.Agrees (constraints : ClassConstraints) (model : ClassModel) : Prop where
  name : constraints.name = model.name
  properties : List.Forall₂ PropertyConstraint.Agrees constraints.properties model.fields

/-- Whether what a schema says of types names a type, alone or among others. -/
def Data.NamesType (types : Data) (type : JsonType) : Prop :=
  types = .text type.name ∨ ∃ names, types = .list names ∧ .text type.name ∈ names

/-- Whether a schema asks for an array, perhaps with null allowed. -/
def Data.AsksForArray (schema : Data) : Prop :=
  ∃ types, schema.under? ["type"] = some types ∧ types.NamesType .array

/-- Whether a schema requires a member. -/
def Data.Requires (schema : Data) (name : String) : Prop :=
  ∃ names, schema.under? ["required"] = some (.list names) ∧ .text name ∈ names

/-- Whether the schema of a class has a member for each of its fields, in their order, which asks for an array
where there are several values, and requires those that must have a value. -/
structure Data.Describes (schema : Data) (model : ClassModel) : Prop where
  properties : ∃ members, schema.under? ["properties"] = some (.map members) ∧
    List.Forall₂ (fun member field => member.1 = field.name ∧
      (member.2.AsksForArray ↔ field.multivalued = true)) members model.fields
  required : ∀ field ∈ model.fields, schema.Requires field.name ↔ field.required = true

/-- Whether everything that is generated from a document says the same of every attribute. -/
structure Compilation.Agrees (compilation : Compilation) : Prop where
  shapes : compilation.graph.shapes.Matches Shape.Agrees compilation.model.classes
  constraints : compilation.validation.classes.Matches ClassConstraints.Agrees compilation.model.classes
  definitions : ∃ schemas, compilation.validation.toData.under? ["$defs"] = some (.map schemas) ∧
    Table.Matches Data.Describes schemas compilation.model.classes

end Agreeing

section Shapes

theorem Datatype.kind?_ofRange (range : Range) : (Datatype.ofRange range).kind? = range.kind? := by
  cases range with
  | scalar kind => cases kind <;> rfl
  | instanceOf className => rfl

theorem Datatype.className?_ofRange (range : Range) :
    (Datatype.ofRange range).className? = range.className? := by
  cases range with
  | scalar kind => cases kind <;> rfl
  | instanceOf className => rfl

/-- A property is made for an attribute exactly if the attribute has an IRI. -/
theorem ShapeProperty.ofAttribute_eq_ok_iff {document : Document} {namespaceUri : String}
    {resolved : ResolvedAttribute} {property : ShapeProperty} :
    ofAttribute document namespaceUri resolved = .ok property ↔
      ∃ iri, document.iri namespaceUri resolved.attr.slotUri? resolved.attr.name = .ok iri ∧
        property = {
          name := resolved.attr.name
          iri := iri
          datatype := .ofRange resolved.range
          minCount := if resolved.attr.isRequired then 1 else 0
          maxCount? := if resolved.attr.multivalued then none else some 1
          description? := resolved.attr.description? } := by
  simp only [ofAttribute, bind_eq_ok_iff, pure, Except.pure, Except.ok.injEq, eq_comm (a := property)]

theorem ShapeProperty.agrees_of_ofAttribute {document : Document} {namespaceUri : String}
    {resolved : ResolvedAttribute} {property : ShapeProperty}
    (made : ofAttribute document namespaceUri resolved = .ok property) :
    property.Agrees (Field.ofAttribute resolved) := by
  obtain ⟨iri, _, rfl⟩ := ofAttribute_eq_ok_iff.mp made
  exact ⟨rfl, Datatype.kind?_ofRange _, Datatype.className?_ofRange _, rfl, rfl⟩

end Shapes

section Constraints

theorem ClassModel.agrees_constraints (model : ClassModel) : model.constraints.Agrees model := by
  refine ⟨rfl, ?_⟩
  rw [ClassModel.constraints, List.forall₂_map_left_iff, List.forall₂_same]
  intro field _
  exact ⟨rfl, rfl, rfl, rfl, rfl⟩

theorem JsonType.namesType_toData_array_iff (type : JsonType) (nullable : Bool) :
    (type.toData nullable).NamesType .array ↔ type = .array := by
  cases type <;> cases nullable <;> simp [toData, Data.NamesType, name]

/-- The schema of an attribute asks for an array exactly if there may be several values. -/
theorem PropertyConstraint.asksForArray_toData_iff (constraint : PropertyConstraint) :
    constraint.toData.AsksForArray ↔ constraint.multivalued = true := by
  obtain ⟨⟨range, multivalued, required⟩, name, description?⟩ := constraint
  cases multivalued with
  | true =>
    refine iff_of_true ⟨JsonType.array.toData (!required), rfl, ?_⟩ rfl
    exact (JsonType.namesType_toData_array_iff .array _).mpr rfl
  | false =>
    refine iff_of_false ?_ Bool.false_ne_true
    rintro ⟨types, found, isArray⟩
    cases range with
    | scalar kind =>
      obtain rfl : kind.rule.type.toData (!required) = types := Option.some.inj found
      have scalar : kind.rule.type ≠ .array := by cases kind <;> decide
      exact scalar ((JsonType.namesType_toData_array_iff _ _).mp isArray)
    | instanceOf className =>
      -- What refers to a class says nothing of types.
      cases required <;> cases description? <;> cases found

/-- The schema of a class requires the names of its required attributes. -/
theorem ClassConstraints.requires_toData_iff (constraints : ClassConstraints) (name : String) :
    constraints.toData.Requires name ↔ name ∈ constraints.requiredNames := by
  have found : constraints.toData.under? ["required"] =
      if constraints.requiredNames.isEmpty then none
      else some (.list (constraints.requiredNames.map .text)) := by
    unfold toData
    cases constraints.description? <;> cases constraints.requiredNames <;> rfl
  rw [Data.Requires, found]
  split
  · rename_i none
    rw [List.isEmpty_iff.mp none]
    simp
  · simp

/-- The schema of a class has the schemas of its attributes. -/
theorem ClassConstraints.under?_properties (constraints : ClassConstraints) :
    constraints.toData.under? ["properties"] =
      some (.map (constraints.properties.map fun property => (property.name, property.toData))) := by
  unfold toData
  cases constraints.description? <;> rfl

/-- The schema that is made for a field table describes it. -/
theorem ClassModel.describes_constraints {model : ClassModel} (distinct : (model.fields.map Field.name).Nodup) :
    model.constraints.toData.Describes model := by
  constructor
  · refine ⟨_, model.constraints.under?_properties, ?_⟩
    rw [ClassModel.constraints, List.map_map, List.forall₂_map_left_iff, List.forall₂_same]
    intro field _
    exact ⟨rfl, field.constraint.asksForArray_toData_iff⟩
  · intro field member
    rw [ClassConstraints.requires_toData_iff, requiredNames_constraints, List.mem_map]
    constructor
    · rintro ⟨other, kept, sameName⟩
      obtain ⟨present, required⟩ := List.mem_filter.mp kept
      rwa [List.inj_on_of_nodup_map distinct present member sameName] at required
    · intro required
      exact ⟨field, List.mem_filter.mpr ⟨member, required⟩, rfl⟩

theorem ValidationDocument.under?_defs (document : ValidationDocument) :
    document.toData.under? ["$defs"] =
      some (.map (document.classes.map fun entry => (entry.1, entry.2.toData))) := by
  unfold toData
  cases document.description? <;> rfl

end Constraints

section Artifacts

/-- Tables that are made entry by entry from one table match where what is made of each entry does. -/
theorem Table.matches_of_forall₂ {α β γ : Type} {source : Table α} {left : Table β} {right : Table γ}
    {makesLeft : String × α → String × β → Prop} {makesRight : String × α → String × γ → Prop}
    {relates : β → γ → Prop} (lefts : List.Forall₂ makesLeft source left)
    (rights : List.Forall₂ makesRight source right)
    (each : ∀ {entry one other}, makesLeft entry one → makesRight entry other →
      one.1 = other.1 ∧ relates one.2 other.2) : left.Matches relates right :=
  forall₂_compose lefts.flip rights each

theorem Shape.agrees_of_ofClass {resolver : RangeResolver} {namespaceUri name : String}
    {definition : ClassDefinition} {shape : Shape} {resolved : List ResolvedAttribute}
    (made : ofClass resolver namespaceUri name definition = .ok shape)
    (success : resolver.resolveClass name = .ok resolved) :
    shape.Agrees ⟨name, definition.description?, resolved.map Field.ofAttribute⟩ := by
  obtain ⟨iri, _, others, again, properties, each, rfl⟩ := ofClass_eq_ok_iff.mp made
  obtain rfl := Except.ok.inj (again.symm.trans success)
  refine ⟨rfl, ?_⟩
  rw [List.forall₂_map_right_iff]
  apply each.flip.imp
  intro property attr fromAttr
  exact ShapeProperty.agrees_of_ofAttribute fromAttr

/-- The validation document of a document constrains each class of the model, whose fields have distinct
names. -/
theorem ValidationDocument.matches_constraints {document : Document} {model : ObjectModel}
    {validation : ValidationDocument} (modelled : ObjectModel.ofDocument document = .ok model)
    (constrained : ofDocument document = .ok validation) :
    validation.classes.Matches (fun constraints classModel => constraints = classModel.constraints ∧
      (classModel.fields.map Field.name).Nodup) model.classes := by
  obtain ⟨resolver, resolves, classes, modelEach, rfl⟩ := ObjectModel.ofDocument_eq_ok_iff.mp modelled
  obtain ⟨other, resolvesAgain, definitions, each, rfl⟩ := ofDocument_eq_ok_iff.mp constrained
  obtain rfl := Except.ok.inj (resolvesAgain.symm.trans resolves)
  apply Table.matches_of_forall₂ each modelEach
  rintro ⟨name, definition⟩ _ _ ⟨others, success, rfl⟩ ⟨resolved, again, rfl⟩
  obtain rfl := Except.ok.inj (again.symm.trans success)
  refine ⟨rfl, ?_, ?_⟩
  · simp only [ClassModel.constraints, List.map_map]
    rfl
  · rw [List.map_map]
    exact RangeResolver.nodup_resolveClass success

/-- The object model, the semantic graph and the validation document of a document say the same of every
attribute. -/
theorem Compilation.agrees_of_ofDocument {settings : Settings} {document : Document}
    {compilation : Compilation} (compiled : ofDocument settings document = .ok compilation) :
    compilation.Agrees := by
  obtain ⟨model, modelled, graph, graphed, validation, constrained, rfl⟩ := ofDocument_eq_ok_iff.mp compiled
  have constraints := ValidationDocument.matches_constraints modelled constrained
  obtain ⟨resolver, resolves, classes, modelEach, rfl⟩ := ObjectModel.ofDocument_eq_ok_iff.mp modelled
  obtain ⟨other, resolvesAgain, namespaceUri, _, shapes, each, rfl⟩ := SchemaGraph.ofDocument_eq_ok_iff.mp graphed
  obtain rfl := Except.ok.inj (resolvesAgain.symm.trans resolves)
  constructor
  · apply Table.matches_of_forall₂ each modelEach
    rintro ⟨name, definition⟩ _ _ ⟨shape, made, rfl⟩ ⟨resolved, success, rfl⟩
    exact ⟨rfl, Shape.agrees_of_ofClass made success⟩
  · apply constraints.imp
    rintro ⟨name, _⟩ ⟨_, classModel⟩ ⟨sameName, rfl, _⟩
    exact ⟨sameName, classModel.agrees_constraints⟩
  · refine ⟨_, validation.under?_defs, ?_⟩
    rw [Table.Matches, List.forall₂_map_left_iff]
    apply constraints.imp
    rintro ⟨name, _⟩ ⟨_, classModel⟩ ⟨sameName, rfl, distinct⟩
    exact ⟨sameName, ClassModel.describes_constraints distinct⟩

/-- Persons inherit an identifier and have a year by a chain of types, a page, nicknames and a home; places
have a name of the default range. -/
def Document.residents : Document :=
  { blank with
    id := "https://example.org/residents"
    name := "residents"
    defaultRange? := some "string"
    types := [("year", ⟨"year", some "count", none, none⟩), ("count", ⟨"count", some "integer", none, none⟩)]
    classes :=
      [("Person", ⟨"Person", none, some "Named", none,
        [⟨"born", "year", false, false, false, none, none⟩, ⟨"page", "uri", false, false, false, none, none⟩,
         ⟨"nicknames", "", true, true, false, none, none⟩, ⟨"home", "Place", false, true, false, none, none⟩]⟩),
       ("Named", ⟨"Named", none, none, none, [⟨"id", "", false, false, true, none, none⟩]⟩),
       ("Place", ⟨"Place", none, none, none, [⟨"name", "", false, false, false, none, none⟩]⟩)] }

theorem Compilation.agrees_of_ofDocument_residents : ∃ compilation,
    ofDocument {} .residents = .ok compilation ∧ compilation.model.classes.keys = ["Person", "Named", "Place"] ∧
      compilation.Agrees := by
  have success : (ofDocument {} .residents).isOk = true := by decide +kernel
  have classNames : ((ofDocument {} .residents).toOption.map fun compilation =>
      compilation.model.classes.keys) = some ["Person", "Named", "Place"] := by decide +kernel
  obtain ⟨compilation, compiled⟩ := exists_eq_ok_of_isOk success
  rw [compiled] at classNames
  exact ⟨compilation, compiled, Option.some.inj classNames, agrees_of_ofDocument compiled⟩

end Artifacts

end ClassSchema
