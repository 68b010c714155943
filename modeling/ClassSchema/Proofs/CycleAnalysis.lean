import Mathlib.Data.Finset.Basic
import Mathlib.Order.WellFoundedSet
import ClassSchema.Graph.Cycles
import ClassSchema.Proofs.Walks
import ClassSchema.Proofs.WellFormedness

/-! # Properties that close a cycle

A property is reported exactly if it has one value and its own class can be reached from the class that it refers
to. In terms of the nodes and edges of a graph, these are the edges of properties with one value within one
strongly connected component. The properties with one value that are not reported lead round no cycle, so every
chain of them ends.
-/

namespace ClassSchema

open Relation

theorem Table.Matches.keys_eq {α β : Type} {relates : α → β → Prop} {left : Table α} {right : Table β}
    (matching : left.Matches relates right) : left.keys = right.keys :=
  map_eq_map_of_forall₂ (fun _ _ entry => entry.1) matching

theorem Table.Matches.flip {α β : Type} {relates : α → β → Prop} {left : Table α} {right : Table β}
    (matching : left.Matches relates right) : right.Matches (fun other one => relates one other) left :=
  (List.Forall₂.flip matching).imp fun _ _ entry => ⟨entry.1.symm, entry.2⟩

/-- What a table has under a name has its counterpart under the same name. -/
theorem Table.Matches.exists_get? {α β : Type} {relates : α → β → Prop} {left : Table α} {right : Table β}
    (matching : left.Matches relates right) {name : String} {one : α} (found : left.get? name = some one) :
    ∃ other, right.get? name = some other ∧ relates one other := by
  induction matching with
  | nil => cases found
  | @cons entry counterpart rest others related _ ih =>
    obtain ⟨key, first⟩ := entry
    obtain ⟨otherKey, second⟩ := counterpart
    obtain ⟨rfl, related⟩ := related
    rw [get?_cons] at found ⊢
    split at found
    · rename_i same
      cases found
      exact ⟨second, if_pos same, related⟩
    · rename_i differ
      rw [if_neg differ]
      exact ih found

/-- A property refers to the class that its field refers to. -/
theorem ShapeProperty.Agrees.refers_iff {property : ShapeProperty} {field : Field} (agrees : property.Agrees field)
    {target : String} : property.datatype.className? = some target ↔ field.range = .instanceOf target := by
  rw [agrees.className?, Range.className?_eq_some_iff]

/-- A property has one value where its field does. -/
theorem ShapeProperty.Agrees.single_iff {property : ShapeProperty} {field : Field} (agrees : property.Agrees field) :
    property.maxCount? = some 1 ↔ field.multivalued = false := by
  rw [agrees.maxCount?]
  cases field.multivalued <;> simp

theorem Datatype.node_eq_ofClass_iff {datatype : Datatype} {name : String} :
    datatype.node = .ofClass name ↔ datatype.className? = some name := by
  unfold Datatype.node
  cases datatype.className? <;> simp

/-- Where property names are distinct, a property is what is found under its name. -/
theorem Shape.property?_eq_some_iff {shape : Shape} (distinct : (shape.properties.map ShapeProperty.name).Nodup)
    {name : String} {property : ShapeProperty} :
    shape.property? name = some property ↔ property ∈ shape.properties ∧ property.name = name := by
  have isFound {other : ShapeProperty} (found : shape.property? name = some other) :
      other ∈ shape.properties ∧ other.name = name :=
    ⟨List.mem_of_find?_eq_some found, by simpa using List.find?_some found⟩
  refine ⟨isFound, ?_⟩
  rintro ⟨member, isNamed⟩
  cases found : shape.property? name with
  | none => exact absurd isNamed (by simpa using List.find?_eq_none.mp found property member)
  | some other =>
    obtain ⟨otherMember, otherNamed⟩ := isFound found
    rw [List.inj_on_of_nodup_map distinct otherMember member (otherNamed.trans isNamed.symm)]

namespace SchemaGraph

/-- Whether a class has a property whose values are instances of another one. -/
def RefersTo (graph : SchemaGraph) (source target : String) : Prop :=
  ∃ shape property, graph.shape? source = some shape ∧ property ∈ shape.properties ∧
    property.datatype.className? = some target

/-- Whether a property of a class has one value, an instance of a class. -/
def HoldsOne (graph : SchemaGraph) (owned : OwnedProperty) (target : String) : Prop :=
  ∃ shape property, graph.shape? owned.className = some shape ∧ property ∈ shape.properties ∧
    property.name = owned.property ∧ property.maxCount? = some 1 ∧ property.datatype.className? = some target

/-- Whether a class has a property with one value, an instance of another one, that is not reported. -/
def Inlines (graph : SchemaGraph) (source target : String) : Prop :=
  ∃ property, graph.HoldsOne ⟨source, property⟩ target ∧ ⟨source, property⟩ ∉ graph.recursiveProperties

/-- What holds of the graph of every document. -/
structure WellFormed (graph : SchemaGraph) : Prop where
  /-- No class has two shapes. -/
  distinct : graph.shapes.keys.Nodup
  /-- A shape is stored under its own name. -/
  named : ∀ {name shape}, graph.shape? name = some shape → shape.name = name
  /-- The properties of a class have distinct names. -/
  properties : ∀ {name shape}, graph.shape? name = some shape → (shape.properties.map ShapeProperty.name).Nodup
  /-- The class that a property refers to has a shape. -/
  closed : ∀ {source target}, graph.RefersTo source target → target ∈ graph.shapes.keys

variable {document : Document} {graph : SchemaGraph} {model : ObjectModel}

theorem HoldsOne.refersTo {owned : OwnedProperty} {target : String} (holds : graph.HoldsOne owned target) :
    graph.RefersTo owned.className target := by
  obtain ⟨shape, property, found, member, _, _, refers⟩ := holds
  exact ⟨shape, property, found, member, refers⟩

theorem Inlines.refersTo {source target : String} (inlines : graph.Inlines source target) :
    graph.RefersTo source target := by
  obtain ⟨_, holds, _⟩ := inlines
  exact holds.refersTo

theorem RefersTo.mem_keys {source target : String} (refers : graph.RefersTo source target) :
    source ∈ graph.shapes.keys := by
  obtain ⟨shape, _, found, _⟩ := refers
  rw [← Table.has_iff_mem_keys, Table.has, ← shape?, found]
  rfl

theorem mem_successors_iff {source target : String} :
    target ∈ graph.successors source ↔ graph.RefersTo source target := by
  rw [successors, RefersTo]
  cases graph.shape? source with
  | none => simp
  | some shape => simp [Shape.classNames]

/-- A document with a graph has an object model, whose field tables say what the shapes say. -/
theorem exists_matches_of_ofDocument (graphed : ofDocument document = .ok graph) :
    ∃ model, ObjectModel.ofDocument document = .ok model ∧ graph.shapes.Matches Shape.Agrees model.classes := by
  obtain ⟨resolver, resolves, namespaceUri, named, shapes, each, rfl⟩ := ofDocument_eq_ok_iff.mp graphed
  obtain ⟨model, modelled⟩ : ∃ model, ObjectModel.ofDocument document = .ok model := by
    refine ObjectModel.exists_ofDocument resolves fun entry member => ?_
    obtain ⟨_, _, shape, made, _⟩ := exists_of_mem_forall₂ each.flip member
    obtain ⟨_, _, resolved, success, _⟩ := Shape.ofClass_eq_ok_iff.mp made
    exact ⟨resolved, success⟩
  refine ⟨model, modelled, ?_⟩
  obtain ⟨other, resolvesAgain, classes, modelEach, rfl⟩ := ObjectModel.ofDocument_eq_ok_iff.mp modelled
  obtain rfl := Except.ok.inj (resolvesAgain.symm.trans resolves)
  apply Table.matches_of_forall₂ each modelEach
  rintro ⟨name, definition⟩ _ _ ⟨shape, made, rfl⟩ ⟨resolved, success, rfl⟩
  exact ⟨rfl, Shape.agrees_of_ofClass made success⟩

theorem exists_field (matching : graph.shapes.Matches Shape.Agrees model.classes) {name : String} {shape : Shape}
    {property : ShapeProperty} (found : graph.shape? name = some shape) (member : property ∈ shape.properties) :
    ∃ classModel field, model.class? name = some classModel ∧ field ∈ classModel.fields ∧ property.Agrees field := by
  obtain ⟨classModel, modelled, agrees⟩ := matching.exists_get? found
  obtain ⟨field, isField, same⟩ := exists_of_mem_forall₂ agrees.properties.flip member
  exact ⟨classModel, field, modelled, isField, same⟩

/-- A property has one value, of a class, where the field of its name does. -/
theorem holdsOne_iff (matching : graph.shapes.Matches Shape.Agrees model.classes) {owned : OwnedProperty}
    {target : String} :
    graph.HoldsOne owned target ↔ ∃ classModel field, model.class? owned.className = some classModel ∧
      field ∈ classModel.fields ∧ field.name = owned.property ∧ field.multivalued = false ∧
        field.range = .instanceOf target := by
  constructor
  · rintro ⟨shape, property, found, member, isNamed, single, refers⟩
    obtain ⟨classModel, field, modelled, isField, same⟩ := exists_field matching found member
    exact ⟨classModel, field, modelled, isField, same.name.symm.trans isNamed, same.single_iff.mp single,
      same.refers_iff.mp refers⟩
  · rintro ⟨classModel, field, modelled, isField, isNamed, single, range⟩
    obtain ⟨shape, found, agrees⟩ := matching.flip.exists_get? modelled
    obtain ⟨property, member, same⟩ := exists_of_mem_forall₂ agrees.properties isField
    exact ⟨shape, property, found, member, same.name.trans isNamed, same.single_iff.mpr single,
      same.refers_iff.mpr range⟩

/-- The graph of a document is well formed. -/
theorem wellFormed_of_ofDocument (distinct : document.classes.keys.Nodup)
    (graphed : ofDocument document = .ok graph) : graph.WellFormed := by
  obtain ⟨model, modelled, matching⟩ := exists_matches_of_ofDocument graphed
  have wellFormed := ObjectModel.wellFormed_of_ofDocument modelled
  obtain ⟨_, _, _, each, same⟩ := ObjectModel.ofDocument_eq_ok_iff.mp modelled
  have keys : document.classes.keys = model.classes.keys := by
    rw [same]
    refine map_eq_map_of_forall₂ ?_ each
    rintro _ _ ⟨_, _, rfl⟩
    rfl
  constructor
  · rw [matching.keys_eq, ← keys]
    exact distinct
  · intro name shape found
    obtain ⟨classModel, modelled, agrees⟩ := matching.exists_get? found
    exact agrees.name.trans (wellFormed.named modelled)
  · intro name shape found
    obtain ⟨classModel, modelled, agrees⟩ := matching.exists_get? found
    have names := map_eq_map_of_forall₂ (fun _ _ same => ShapeProperty.Agrees.name same) agrees.properties
    rw [names]
    exact wellFormed.distinct modelled
  · rintro source target ⟨shape, property, found, member, refers⟩
    obtain ⟨classModel, field, modelled, isField, same⟩ := exists_field matching found member
    rw [matching.keys_eq, ← Table.has_iff_mem_keys]
    exact wellFormed.closed modelled isField (same.refers_iff.mp refers)

theorem mem_values_iff (wellFormed : graph.WellFormed) {shape : Shape} :
    shape ∈ graph.shapes.values ↔ graph.shape? shape.name = some shape := by
  constructor
  · intro isShape
    obtain ⟨⟨name, _⟩, stored, rfl⟩ := List.mem_map.mp isShape
    have found : graph.shape? name = some _ := (Table.get?_eq_some_iff_mem wellFormed.distinct).mpr stored
    rwa [wellFormed.named found]
  · exact Table.mem_values_of_get?

/-- The classes that are found from a class are those that its references lead to. -/
theorem reaches_iff (wellFormed : graph.WellFormed) {start goal : String} (isClass : start ∈ graph.shapes.keys) :
    graph.reaches start goal = true ↔ ReflTransGen graph.RefersTo start goal := by
  have steps : (fun name follower => follower ∈ graph.successors name ∧ follower ∈ graph.shapes.keys) =
      graph.RefersTo := by
    funext name follower
    rw [mem_successors_iff]
    exact propext ⟨And.left, fun refers => ⟨refers, wellFormed.closed refers⟩⟩
  rw [reaches, List.contains_iff_mem, mem_reachable_iff, steps]
  exact and_iff_right isClass

theorem mem_recursiveProperties_iff (wellFormed : graph.WellFormed) {owned : OwnedProperty} :
    owned ∈ graph.recursiveProperties ↔
      ∃ target, graph.HoldsOne owned target ∧ ReflTransGen graph.RefersTo target owned.className := by
  simp only [recursiveProperties, List.mem_flatMap, List.mem_map, List.mem_filter, closesCycle, Bool.and_eq_true,
    beq_iff_eq, Option.any_eq_true]
  constructor
  · rintro ⟨shape, isShape, property, ⟨member, single, target, refers, reaches⟩, rfl⟩
    have holds : graph.HoldsOne ⟨shape.name, property.name⟩ target :=
      ⟨shape, property, (mem_values_iff wellFormed).mp isShape, member, rfl, single, refers⟩
    exact ⟨target, holds, (reaches_iff wellFormed (wellFormed.closed holds.refersTo)).mp reaches⟩
  · rintro ⟨target, holds, path⟩
    have isClass := wellFormed.closed holds.refersTo
    obtain ⟨shape, property, found, member, isNamed, single, refers⟩ := holds
    rw [← reaches_iff wellFormed isClass, ← wellFormed.named found] at path
    refine ⟨shape, Table.mem_values_of_get? found, property, ⟨member, single, target, refers, path⟩, ?_⟩
    rw [wellFormed.named found, isNamed]

/-- Whether an edge leads from one node to another. -/
def Leads (graph : SchemaGraph) (source target : GraphNode) : Prop :=
  ∃ edge ∈ graph.edges, edge.source = source ∧ edge.target = target

/-- Whether two nodes are in one strongly connected component: each can be reached from the other. -/
def AreConnected (graph : SchemaGraph) (left right : GraphNode) : Prop :=
  ReflTransGen graph.Leads left right ∧ ReflTransGen graph.Leads right left

/-- Whether an edge is the one of a property that closes a cycle: it stays within one component, and the property
that its class has under its label has one value. -/
structure ClosesCycleAt (graph : SchemaGraph) (owned : OwnedProperty) (edge : GraphEdge) : Prop where
  source : edge.source = .ofClass owned.className
  label : edge.label = owned.property
  connected : graph.AreConnected edge.source edge.target
  single : ∃ shape property, graph.shape? owned.className = some shape ∧
    shape.property? edge.label = some property ∧ property.maxCount? = some 1

theorem mem_edges_iff (wellFormed : graph.WellFormed) {edge : GraphEdge} :
    edge ∈ graph.edges ↔ ∃ name shape property, graph.shape? name = some shape ∧ property ∈ shape.properties ∧
      edge = ⟨.ofClass name, property.datatype.node, property.name⟩ := by
  simp only [edges, List.mem_flatMap, List.mem_map]
  constructor
  · rintro ⟨shape, isShape, property, member, rfl⟩
    exact ⟨shape.name, shape, property, (mem_values_iff wellFormed).mp isShape, member, rfl⟩
  · rintro ⟨name, shape, property, found, member, rfl⟩
    exact ⟨shape, Table.mem_values_of_get? found, property, member, by rw [wellFormed.named found]⟩

/-- Only classes have edges, and those to other classes are references. -/
theorem exists_ofClass_of_leads (wellFormed : graph.WellFormed) {source : GraphNode} {target : String}
    (leads : graph.Leads source (.ofClass target)) :
    ∃ name, source = .ofClass name ∧ graph.RefersTo name target := by
  obtain ⟨edge, isEdge, rfl, ends⟩ := leads
  obtain ⟨name, shape, property, found, member, rfl⟩ := (mem_edges_iff wellFormed).mp isEdge
  exact ⟨name, rfl, shape, property, found, member, Datatype.node_eq_ofClass_iff.mp ends⟩

theorem leads_of_refersTo (wellFormed : graph.WellFormed) {source target : String}
    (refers : graph.RefersTo source target) : graph.Leads (.ofClass source) (.ofClass target) := by
  obtain ⟨shape, property, found, member, isClass⟩ := refers
  exact ⟨_, (mem_edges_iff wellFormed).mpr ⟨source, shape, property, found, member, rfl⟩, rfl,
    Datatype.node_eq_ofClass_iff.mpr isClass⟩

/-- A path that ends at a class passes no datatype. -/
theorem exists_ofClass_of_reflTransGen (wellFormed : graph.WellFormed) {source : GraphNode} {target : String}
    (path : ReflTransGen graph.Leads source (.ofClass target)) :
    ∃ name, source = .ofClass name ∧ ReflTransGen graph.RefersTo name target := by
  induction path using ReflTransGen.head_induction_on with
  | refl => exact ⟨target, rfl, .refl⟩
  | head leads _ ih =>
    obtain ⟨name, rfl, further⟩ := ih
    obtain ⟨first, isFirst, refers⟩ := exists_ofClass_of_leads wellFormed leads
    exact ⟨first, isFirst, .head refers further⟩

/-- What is reported are the edges within one component whose properties have one value. -/
theorem mem_recursiveProperties_iff_areConnected (wellFormed : graph.WellFormed) {owned : OwnedProperty} :
    owned ∈ graph.recursiveProperties ↔ ∃ edge ∈ graph.edges, graph.ClosesCycleAt owned edge := by
  rw [mem_recursiveProperties_iff wellFormed]
  constructor
  · rintro ⟨target, holds, path⟩
    have forth := ReflTransGen.single (leads_of_refersTo wellFormed holds.refersTo)
    have back := ReflTransGen.lift GraphNode.ofClass (fun _ _ => leads_of_refersTo wellFormed) _ _ path
    obtain ⟨shape, property, found, member, isNamed, single, refers⟩ := holds
    have isProperty := (Shape.property?_eq_some_iff (wellFormed.properties found)).mpr ⟨member, rfl⟩
    have within : graph.AreConnected (.ofClass owned.className) property.datatype.node := by
      rw [Datatype.node_eq_ofClass_iff.mpr refers]
      exact ⟨forth, back⟩
    exact ⟨_, (mem_edges_iff wellFormed).mpr ⟨_, shape, property, found, member, rfl⟩, rfl, isNamed, within, shape,
      property, found, isProperty, single⟩
  · rintro ⟨_, isEdge, isSource, isLabel, ⟨_, back⟩, shape, property, found, isProperty, single⟩
    obtain ⟨name, sameShape, sameProperty, foundToo, member, rfl⟩ := (mem_edges_iff wellFormed).mp isEdge
    cases isSource
    obtain rfl := Option.some.inj (found.symm.trans foundToo)
    have isSame := (Shape.property?_eq_some_iff (wellFormed.properties found)).mpr ⟨member, rfl⟩
    obtain rfl := Option.some.inj (isProperty.symm.trans isSame)
    obtain ⟨target, isClass, path⟩ := exists_ofClass_of_reflTransGen wellFormed back
    have refers := Datatype.node_eq_ofClass_iff.mp isClass
    exact ⟨target, ⟨shape, property, found, member, isLabel, single, refers⟩, path⟩

/-- The properties with one value that are not reported lead round no cycle. -/
theorem not_transGen_inlines (wellFormed : graph.WellFormed) (name : String) :
    ¬ TransGen graph.Inlines name name := by
  intro cycle
  obtain ⟨target, ⟨property, holds, notReported⟩, path⟩ := TransGen.head'_iff.mp cycle
  apply notReported
  have leadsBack := ReflTransGen.mono (fun _ _ => Inlines.refersTo) _ _ path
  exact (mem_recursiveProperties_iff wellFormed).mpr ⟨target, holds, leadsBack⟩

/-- Every chain of properties with one value that are not reported ends. -/
theorem wellFounded_inlines (wellFormed : graph.WellFormed) :
    WellFounded fun target source => graph.Inlines source target := by
  let leads (target source : String) : Prop := TransGen graph.Inlines source target
  have isOrder : IsStrictOrder String leads :=
    { irrefl := not_transGen_inlines wellFormed
      trans := fun _ _ _ later earlier => TransGen.trans earlier later }
  have finite : { name | name ∈ graph.shapes.keys }.Finite := List.finite_toSet _
  refine Subrelation.wf ?_ (Set.wellFoundedOn_iff.mp (finite.wellFoundedOn (r := leads)))
  intro target source inlines
  exact ⟨.single inlines, wellFormed.closed inlines.refersTo, inlines.refersTo.mem_keys⟩

end SchemaGraph

end ClassSchema
