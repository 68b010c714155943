import Mathlib.Algebra.GroupWithZero.Nat
import ClassSchema.Proofs.CycleAnalysis
import ClassSchema.Struct.Source

/-! # Sizes of structs

A struct is as large as its fields together. A field holds the struct of its class within itself, unless it is boxed
or a list; so a struct that holds itself, directly or through others, has no finite size. Boxing the properties that
are reported gives every struct one, whatever the fields take besides what they hold.
-/

namespace ClassSchema

open Relation

namespace Struct

/-- The class whose struct a field holds within itself; a list and a box hold theirs elsewhere. -/
def heldClass? (boxed : Bool) (field : Field) : Option String :=
  if field.multivalued || boxed then none else field.range.className?

theorem heldClass?_eq_some_iff {boxed : Bool} {field : Field} {target : String} :
    heldClass? boxed field = some target ↔
      field.multivalued = false ∧ boxed = false ∧ field.range = .instanceOf target := by
  unfold heldClass?
  cases field.multivalued <;> cases boxed <;> simp [Range.className?_eq_some_iff]

/-- A field that holds a struct has the struct for its type, perhaps as an option. -/
theorem fieldType_of_heldClass?_eq_some (profile : RenderProfile) {boxed : Bool} {field : Field} {target : String}
    (holds : heldClass? boxed field = some target) :
    fieldType profile boxed field =
      if field.required then pascalCase target else s!"Option<{pascalCase target}>" := by
  obtain ⟨single, unboxed, range⟩ := heldClass?_eq_some_iff.mp holds
  simp [fieldType, singleType, single, unboxed, range]

/-- A field of another type holds a scalar, or it is a list or a box. -/
theorem fieldType_of_heldClass?_eq_none (profile : RenderProfile) {boxed : Bool} {field : Field}
    (holds : heldClass? boxed field = none) :
    (∃ kind, field.range = .scalar kind) ∨
      ∃ inner : String, fieldType profile boxed field = s!"Vec<{inner}>" ∨
        fieldType profile boxed field = s!"Box<{inner}>" ∨
          fieldType profile boxed field = "Option<" ++ s!"Box<{inner}>" ++ ">" := by
  cases range : field.range with
  | scalar kind => exact .inl ⟨kind, rfl⟩
  | instanceOf className =>
    refine .inr ?_
    unfold fieldType
    cases several : field.multivalued with
    | true => exact ⟨_, .inl rfl⟩
    | false =>
      obtain rfl : boxed = true := by simpa [heldClass?, several, range, Range.className?] using holds
      cases field.required with
      | true => exact ⟨_, .inr (.inl rfl)⟩
      | false => exact ⟨_, .inr (.inr rfl)⟩

section

variable (model : ObjectModel) (boxed : List OwnedProperty)

/-- Whether the struct of a class holds the one of another class in a field. -/
def Holds (source target : String) : Prop :=
  ∃ classModel field, model.class? source = some classModel ∧ field ∈ classModel.fields ∧
    heldClass? (boxed.contains ⟨classModel.name, field.name⟩) field = some target

variable (width : OwnedProperty → Nat)

/-- The size of a field of a class: what it takes itself, and the size of the struct that it holds. -/
def fieldSize (size : String → Nat) (className : String) (field : Field) : Nat :=
  let owned : OwnedProperty := ⟨className, field.name⟩
  width owned + ((heldClass? (boxed.contains owned) field).map size).getD 0

/-- Whether the struct of a class has a size, which its fields make up together. Sizes are found from the structs
that hold no other ones upwards, so what holds itself has none. -/
inductive HasSize : String → Nat → Prop
  | intro {name : String} {classModel : ClassModel} (found : model.class? name = some classModel)
      (size : String → Nat)
      (held : ∀ field ∈ classModel.fields, ∀ target,
        heldClass? (boxed.contains ⟨classModel.name, field.name⟩) field = some target →
          HasSize target (size target)) :
      HasSize name (classModel.fields.map (fieldSize boxed width size classModel.name)).sum

end

variable {model : ObjectModel} {boxed : List OwnedProperty} {width : OwnedProperty → Nat} {name : String}

theorem HasSize.unique {left right : Nat} (one : HasSize model boxed width name left)
    (other : HasSize model boxed width name right) : left = right := by
  induction one generalizing right with
  | intro found size _ ih =>
    obtain ⟨foundToo, sizeToo, heldToo⟩ := other
    obtain rfl := Option.some.inj (found.symm.trans foundToo)
    congr 1
    refine List.map_congr_left fun field member => ?_
    simp only [fieldSize]
    cases holds : heldClass? (boxed.contains ⟨_, field.name⟩) field with
    | none => rfl
    | some target =>
      have same := ih field member target holds (heldToo field member target holds)
      simp [same]

/-- A struct with a size holds itself in no way. -/
theorem HasSize.not_transGen {size : Nat} (has : HasSize model boxed width name size) :
    ¬ TransGen (Holds model boxed) name name := by
  induction has with
  | intro found size held ih =>
    intro cycle
    obtain ⟨target, holds, path⟩ := TransGen.head'_iff.mp cycle
    have again := TransGen.tail' path holds
    obtain ⟨_, field, foundToo, member, holds⟩ := holds
    obtain rfl := Option.some.inj (found.symm.trans foundToo)
    exact ih field member target holds again

/-- Where every chain of structs that hold each other ends, every struct has a size. -/
theorem exists_hasSize (wellFormed : model.WellFormed)
    (ends : WellFounded fun target source => Holds model boxed source target) (width : OwnedProperty → Nat)
    {classModel : ClassModel} (found : model.class? name = some classModel) :
    ∃ size, HasSize model boxed width name size := by
  induction name using ends.induction generalizing classModel with
  | _ name ih =>
    have each (target : String) : ∃ size, Holds model boxed name target → HasSize model boxed width target size := by
      by_cases holds : Holds model boxed name target
      · have ⟨_, field, foundToo, member, held⟩ := holds
        have isClass := wellFormed.closed foundToo member (heldClass?_eq_some_iff.mp held).2.2
        obtain ⟨_, foundTarget⟩ := Option.isSome_iff_exists.mp isClass
        obtain ⟨size, has⟩ := ih target holds foundTarget
        exact ⟨size, fun _ => has⟩
      · exact ⟨0, fun held => absurd held holds⟩
    choose size sized using each
    exact ⟨_, .intro found size fun field member target held => sized target ⟨_, field, found, member, held⟩⟩

end Struct

namespace SchemaGraph

variable {document : Document} {graph : SchemaGraph} {model : ObjectModel}

/-- Where the reported properties are boxed, a struct holds another one only for a property that is not reported. -/
theorem inlines_of_holds (matching : graph.shapes.Matches Shape.Agrees model.classes) (wellFormed : model.WellFormed)
    {source target : String} (holds : Struct.Holds model graph.recursiveProperties source target) :
    graph.Inlines source target := by
  obtain ⟨classModel, field, found, member, held⟩ := holds
  obtain ⟨single, unboxed, range⟩ := Struct.heldClass?_eq_some_iff.mp held
  rw [wellFormed.named found] at unboxed
  refine ⟨field.name, (holdsOne_iff matching).mpr ⟨classModel, field, found, member, rfl, single, range⟩, ?_⟩
  intro reported
  rw [List.contains_iff_mem.mpr reported] at unboxed
  cases unboxed

/-- The analysis of cycles reports exactly the properties with one value of a class from which their own class can
be reached: these are the edges within one strongly connected component whose properties have one value. Those with
one value that are not reported lead round no cycle, so where the reported ones are boxed, every struct of the
object model has a finite size. -/
theorem recursiveProperties_break_cycles (distinct : document.classes.keys.Nodup)
    (graphed : ofDocument document = .ok graph) :
    (∀ owned, owned ∈ graph.recursiveProperties ↔
      ∃ target, graph.HoldsOne owned target ∧ ReflTransGen graph.RefersTo target owned.className) ∧
    (∀ owned, owned ∈ graph.recursiveProperties ↔ ∃ edge ∈ graph.edges, graph.ClosesCycleAt owned edge) ∧
    (∀ name, ¬ TransGen graph.Inlines name name) ∧
    ∃ model, ObjectModel.ofDocument document = .ok model ∧
      ∀ width, ∀ name ∈ model.classes.keys,
        ∃! size, Struct.HasSize model graph.recursiveProperties width name size := by
  have wellFormed := wellFormed_of_ofDocument distinct graphed
  refine ⟨fun _ => mem_recursiveProperties_iff wellFormed, fun _ => mem_recursiveProperties_iff_areConnected wellFormed,
    not_transGen_inlines wellFormed, ?_⟩
  obtain ⟨model, modelled, matching⟩ := exists_matches_of_ofDocument graphed
  have modelWellFormed := ObjectModel.wellFormed_of_ofDocument modelled
  refine ⟨model, modelled, fun width name isClass => ?_⟩
  rw [← Table.has_iff_mem_keys, Table.has, Option.isSome_iff_exists] at isClass
  obtain ⟨classModel, found⟩ := isClass
  have ends := Subrelation.wf (inlines_of_holds matching modelWellFormed) (wellFounded_inlines wellFormed)
  obtain ⟨size, has⟩ := Struct.exists_hasSize modelWellFormed ends width found
  exact ⟨size, has, fun other hasToo => hasToo.unique has⟩

end SchemaGraph

/-- Nodes of a tree with their parents and children, a pair of classes that refer to each other, and a class outside
of all cycles that refers to nodes. -/
def Document.forest : Document :=
  let single (name range : String) : Attribute := ⟨name, range, false, false, false, none, none⟩
  let declared (name : String) (attributes : List Attribute) : String × ClassDefinition :=
    (name, ⟨name, none, none, none, attributes⟩)
  { blank with
    id := "t"
    name := "t"
    classes :=
      [declared "Node" [single "parent" "Node", { single "children" "Node" with multivalued := true }],
       declared "Left" [single "right" "Right"], declared "Right" [single "left" "Left"],
       declared "Leaf" [single "owner" "Node"]] }

/-- The graph of that document. -/
def SchemaGraph.forest : SchemaGraph :=
  let single (name target : String) : ShapeProperty := ⟨name, "t/" ++ name, .resource (some target), 0, some 1, none⟩
  let shape (name : String) (properties : List ShapeProperty) : String × Shape :=
    (name, ⟨name, "t/" ++ name, none, properties⟩)
  ⟨"t", "t/", [],
    [shape "Node" [single "parent" "Node", { single "children" "Node" with maxCount? := none }],
     shape "Left" [single "right" "Right"], shape "Right" [single "left" "Left"],
     shape "Leaf" [single "owner" "Node"]]⟩

theorem SchemaGraph.recursiveProperties_break_cycles_forest :
    ofDocument .forest = .ok forest ∧
      forest.recursiveProperties = [⟨"Node", "parent"⟩, ⟨"Left", "right"⟩, ⟨"Right", "left"⟩] ∧
      (∃ target, forest.HoldsOne ⟨"Left", "right"⟩ target ∧ ReflTransGen forest.RefersTo target "Left") ∧
      (∃ edge ∈ forest.edges, forest.ClosesCycleAt ⟨"Left", "right"⟩ edge) ∧
      (¬ TransGen forest.Inlines "Leaf" "Leaf") ∧
      ∃ model, ObjectModel.ofDocument .forest = .ok model ∧
        ∀ name ∈ model.classes.keys, ∃ size, Struct.HasSize model forest.recursiveProperties (fun _ => 1) name size := by
  have graphed : ofDocument .forest = .ok forest := by decide +kernel
  have reported : forest.recursiveProperties = [⟨"Node", "parent"⟩, ⟨"Left", "right"⟩, ⟨"Right", "left"⟩] := by
    simp [forest, recursiveProperties, closesCycle, reaches, successors, shape?, Shape.classNames,
      Datatype.className?, Table.keys, Table.values, Table.get?, reachable, walk]
  obtain ⟨exact, edges, acyclic, model, modelled, sized⟩ := recursiveProperties_break_cycles (by decide) graphed
  have member : ⟨"Left", "right"⟩ ∈ forest.recursiveProperties := by simp [reported]
  have closes := (exact ⟨"Left", "right"⟩).mp member
  have within := (edges ⟨"Left", "right"⟩).mp member
  exact ⟨graphed, reported, closes, within, acyclic "Leaf", model, modelled,
    fun name isClass => (sized (fun _ => 1) name isClass).exists⟩

end ClassSchema
