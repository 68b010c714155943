import Mathlib.Data.List.Perm.Basic
import ClassSchema.Proofs.Acceptance

/-! # Outcomes of construction

What construction finds in a map, at any depth, is put together from what it finds for each field, and in a list
from what it finds in each item. So two constructions are compared part by part: where the parts agree, and the
paths of their faults are related in a way that concatenation keeps, the same holds of the whole.
-/

namespace ClassSchema

/-- What holds of data without parts, and of a list or a map if it does of all that stands in it, holds of all
data. -/
theorem Data.inductionOn {motive : Data → Prop} (data : Data)
    (leaf : ∀ data, (∀ items, data ≠ .list items) → (∀ entries, data ≠ .map entries) → motive data)
    (list : ∀ items, (∀ item ∈ items, motive item) → motive (.list items))
    (map : ∀ entries, (∀ entry ∈ entries, motive entry.2) → motive (.map entries)) : motive data :=
  Data.rec (motive_1 := motive) (motive_2 := fun items => ∀ item ∈ items, motive item)
    (motive_3 := fun entries => ∀ entry ∈ entries, motive entry.2) (motive_4 := fun entry => motive entry.2)
    (leaf .null nofun nofun) (fun value => leaf (.bool value) nofun nofun)
    (fun literal => leaf (.number literal) nofun nofun) (fun value => leaf (.text value) nofun nofun)
    list map (by simp) (fun _ _ first others => List.forall_mem_cons.mpr ⟨first, others⟩) (by simp)
    (fun _ _ first others => List.forall_mem_cons.mpr ⟨first, others⟩) (fun _ _ value => value) data

/-- The keys of a map that are no attributes of a class. -/
def ClassModel.undeclared (classModel : ClassModel) (entries : Table Data) : List String :=
  entries.keys.filter fun key => (classModel.field? key).isNone

theorem paths_unknownKeys (classModel : ClassModel) (path : String) (entries : Table Data) :
    (Outcome.unknownKeys classModel path entries).map CoercionError.path =
      (classModel.undeclared entries).map (joinPath path) := by
  induction entries with
  | nil => rfl
  | cons entry rest ih =>
    obtain ⟨key, data⟩ := entry
    simp only [Outcome.unknownKeys, ClassModel.undeclared, Table.keys, List.map_cons, List.filter_cons,
      List.filterMap_cons] at ih ⊢
    cases classModel.field? key <;> simp [ih]

namespace ObjectModel

variable (model : ObjectModel) (mode : CoercionMode)

/-- The attributes of a class from the entries of a map that stands at a path. -/
def constructEntries (classModel : ClassModel) (path : String) (entries : Table Data) : Outcome (Table Value) :=
  .fields (Outcome.unknownKeys classModel path entries)
    (classModel.fields.map fun field =>
      (field.name, constructField model mode field (joinPath path field.name) entries))

theorem errors_constructEntries (classModel : ClassModel) (path : String) (entries : Table Data) :
    (constructEntries model mode classModel path entries).errors =
      Outcome.unknownKeys classModel path entries ++ classModel.fields.flatMap fun field =>
        (constructField model mode field (joinPath path field.name) entries).errors := by
  simp only [constructEntries, Outcome.fields, List.flatMap_map]

theorem constructSingle_map {className : String} {classModel : ClassModel}
    (found : model.class? className = some classModel) (path : String) (entries : Table Data) :
    constructSingle model mode (.instanceOf className) path (.map entries) =
      ⟨.object classModel.name (constructEntries model mode classModel path entries).value,
        (constructEntries model mode classModel path entries).errors⟩ := by
  simp only [constructSingle, found, constructEntries]

theorem constructItems_eq (range : Range) (path : String) (index : Nat) (items : List Data) :
    constructItems model mode range path index items = (items.zipIdx index).map fun item =>
      constructSingle model mode range (itemPath path item.2) item.1 := by
  induction items generalizing index with
  | nil => rw [constructItems, List.zipIdx_nil, List.map_nil]
  | cons item rest ih => rw [constructItems, List.zipIdx_cons, List.map_cons, ih]

/-- The faults that a construction reports: none with an instance. -/
def reported : Except ConstructionError Instance → List CoercionError
  | .ok _ => []
  | .error error => error.errors

theorem constructClass_eq (classModel : ClassModel) (entries : Table Data) :
    constructClass model mode classModel entries =
      if (constructEntries model mode classModel "" entries).errors = [] then
        .ok ⟨classModel.name, (constructEntries model mode classModel "" entries).value⟩
      else .error ⟨classModel.name, (constructEntries model mode classModel "" entries).errors⟩ := by
  simp only [constructClass, List.isEmpty_iff]
  rfl

variable {model mode}

theorem constructClass_eq_ok_iff {classModel : ClassModel} {entries : Table Data} {instanceValue : Instance} :
    constructClass model mode classModel entries = .ok instanceValue ↔
      (constructEntries model mode classModel "" entries).errors = [] ∧
        instanceValue = ⟨classModel.name, (constructEntries model mode classModel "" entries).value⟩ := by
  rw [constructClass_eq]
  split
  · rename_i faultless
    rw [Except.ok.injEq, eq_comm]
    exact (and_iff_right faultless).symm
  · rename_i faulty
    exact iff_of_false nofun fun success => faulty success.1

theorem reported_constructClass (classModel : ClassModel) (entries : Table Data) :
    reported (constructClass model mode classModel entries) =
      (constructEntries model mode classModel "" entries).errors := by
  rw [constructClass_eq]
  split
  · rename_i faultless
    exact faultless.symm
  · rfl

end ObjectModel

/-- The paths of the faults of an outcome. -/
def Outcome.paths {α : Type} (outcome : Outcome α) : List String :=
  outcome.errors.map CoercionError.path

/-- Whether lists of paths are compared so that equal lists are related, nothing but no path at all is related
to it, and comparisons may be put one behind the other. -/
structure ComparesPaths (relates : List String → List String → Prop) : Prop where
  refl : ∀ paths, relates paths paths
  eq_nil : ∀ {paths}, relates paths [] → paths = []
  append : ∀ {left left' right right'}, relates left left' → relates right right' →
    relates (left ++ right) (left' ++ right')

theorem comparesPaths_sublist : ComparesPaths List.Sublist :=
  ⟨List.Sublist.refl, List.sublist_nil.mp, List.Sublist.append⟩

theorem comparesPaths_perm : ComparesPaths List.Perm :=
  ⟨List.Perm.refl, List.Perm.eq_nil, List.Perm.append⟩

namespace Outcome

/-- Whether the paths of an outcome are related to those of another one, and its value is the value of the other
where that is without fault. -/
structure Follows {α : Type} (relates : List String → List String → Prop) (outcome other : Outcome α) : Prop where
  paths : relates outcome.paths other.paths
  value : other.errors = [] → outcome.value = other.value

variable {relates : List String → List String → Prop} (compares : ComparesPaths relates)
include compares

theorem Follows.refl {α : Type} (outcome : Outcome α) : Follows relates outcome outcome :=
  ⟨compares.refl _, fun _ => rfl⟩

/-- Faults at one path are alike, whatever is wrong. -/
theorem Follows.fault {error other : CoercionError} (same : error.path = other.path) :
    Follows relates (fault error) (fault other) := by
  refine ⟨?_, fun _ => rfl⟩
  simp only [Outcome.paths, Outcome.fault, List.map_cons, List.map_nil, same]
  exact compares.refl _

theorem Follows.list {lefts rights : List (Outcome Value)} (each : List.Forall₂ (Follows relates) lefts rights) :
    Follows relates (list lefts) (list rights) := by
  induction each with
  | nil => exact .refl compares _
  | @cons left right lefts rights first _ ih =>
    constructor
    · have both := compares.append first.paths ih.paths
      simpa only [Outcome.paths, Outcome.list, List.flatMap_cons, List.map_append] using both
    · intro faultless
      simp only [Outcome.list, List.flatMap_cons, List.append_eq_nil_iff] at faultless
      have others := ih.value faultless.2
      simp only [Outcome.list, Value.list.injEq] at others
      simp only [Outcome.list, List.map_cons, first.value faultless.1, others]

theorem Follows.fields {unknown others : List CoercionError}
    (keys : relates (unknown.map CoercionError.path) (others.map CoercionError.path)) {table : List Field}
    {left right : Field → Outcome Value} (each : ∀ field ∈ table, Follows relates (left field) (right field)) :
    Follows relates (fields unknown (table.map fun field => (field.name, left field)))
      (fields others (table.map fun field => (field.name, right field))) := by
  have related : relates (table.flatMap fun field => (left field).paths)
      (table.flatMap fun field => (right field).paths) := by
    clear keys
    induction table with
    | nil => exact compares.refl []
    | cons field rest ih =>
      obtain ⟨first, later⟩ := List.forall_mem_cons.mp each
      rw [List.flatMap_cons, List.flatMap_cons]
      exact compares.append first.paths (ih later)
  constructor
  · have both := compares.append keys related
    simpa only [Outcome.paths, Outcome.fields, List.flatMap_map, List.map_append, List.map_flatMap] using both
  · intro faultless
    simp only [Outcome.fields, List.append_eq_nil_iff, List.flatMap_eq_nil_iff, List.forall_mem_map] at faultless
    simp only [Outcome.fields, List.map_map]
    apply List.map_congr_left
    intro field isField
    exact congrArg _ ((each field isField).value (faultless.2 field isField))

end Outcome

/-- Lists and maps are no scalars. -/
theorem exists_coerceScalar_error (mode : CoercionMode) (kind : ScalarKind) {data : Data}
    (hasParts : (∃ items, data = .list items) ∨ ∃ entries, data = .map entries) :
    ∃ reason, coerceScalar mode kind data = .error reason := by
  rcases hasParts with ⟨items, rfl⟩ | ⟨entries, rfl⟩ <;> cases kind <;> exact ⟨_, rfl⟩

namespace ObjectModel

section Faults

variable (model : ObjectModel)

theorem exists_constructSingle_list (mode : CoercionMode) (range : Range) (path : String) (items : List Data) :
    ∃ error, error.path = path ∧ constructSingle model mode range path (.list items) = .fault error := by
  cases range with
  | scalar kind =>
    obtain ⟨reason, refused⟩ := exists_coerceScalar_error mode kind (.inl ⟨items, rfl⟩)
    simp only [constructSingle, Outcome.scalar, refused]
    exact ⟨_, rfl, rfl⟩
  | instanceOf className =>
    simp only [constructSingle, Outcome.noInstance]
    split <;> exact ⟨_, rfl, rfl⟩

/-- A map is a fault, or it is an instance of a class. -/
theorem constructSingle_map_cases (range : Range) :
    (∀ mode path entries, ∃ error, error.path = path ∧
      constructSingle model mode range path (.map entries) = .fault error) ∨
    ∃ className classModel, range = .instanceOf className ∧ model.class? className = some classModel := by
  cases range with
  | scalar kind =>
    left
    intro mode path entries
    obtain ⟨reason, refused⟩ := exists_coerceScalar_error mode kind (.inr ⟨entries, rfl⟩)
    simp only [constructSingle, Outcome.scalar, refused]
    exact ⟨_, rfl, rfl⟩
  | instanceOf className =>
    cases found : model.class? className with
    | none =>
      left
      intro mode path entries
      simp only [constructSingle, found, Outcome.noInstance]
      exact ⟨_, rfl, rfl⟩
    | some classModel => exact .inr ⟨className, classModel, rfl, found⟩

end Faults

variable {model : ObjectModel} {mode otherMode : CoercionMode} {relates : List String → List String → Prop}
  (compares : ComparesPaths relates)
include compares

theorem follows_constructItems {range : Range} {path : String} {items others : List Data}
    (each : List.Forall₂ (fun item other => ∀ path, Outcome.Follows relates
      (constructSingle model mode range path item) (constructSingle model otherMode range path other))
      items others) (index : Nat) :
    Outcome.Follows relates (.list (constructItems model mode range path index items))
      (.list (constructItems model otherMode range path index others)) := by
  apply Outcome.Follows.list compares
  induction each generalizing index with
  | nil => exact .nil
  | cons first _ ih => exact .cons (first _) (ih (index + 1))

theorem follows_constructEntries {classModel : ClassModel} {path : String} {entries others : Table Data}
    (keys : relates ((Outcome.unknownKeys classModel path entries).map CoercionError.path)
      ((Outcome.unknownKeys classModel path others).map CoercionError.path))
    (each : ∀ field ∈ classModel.fields, Outcome.Follows relates
      (constructField model mode field (joinPath path field.name) entries)
      (constructField model otherMode field (joinPath path field.name) others)) :
    Outcome.Follows relates (constructEntries model mode classModel path entries)
      (constructEntries model otherMode classModel path others) :=
  Outcome.Follows.fields compares keys each

theorem follows_constructSingle_map {range : Range} {path : String} {entries others : Table Data}
    (each : ∀ className classModel, range = .instanceOf className → model.class? className = some classModel →
      Outcome.Follows relates (constructEntries model mode classModel path entries)
        (constructEntries model otherMode classModel path others)) :
    Outcome.Follows relates (constructSingle model mode range path (.map entries))
      (constructSingle model otherMode range path (.map others)) := by
  rcases constructSingle_map_cases model range with refused | ⟨className, classModel, rfl, found⟩
  · obtain ⟨error, atPath, left⟩ := refused mode path entries
    obtain ⟨other, alsoAtPath, right⟩ := refused otherMode path others
    rw [left, right]
    exact .fault compares (atPath.trans alsoAtPath.symm)
  · rw [constructSingle_map model mode found, constructSingle_map model otherMode found]
    have parts := each className classModel rfl found
    exact ⟨parts.paths, fun faultless => by rw [parts.value faultless]⟩

theorem follows_constructValue_list {field : Field} {path : String} {items others : List Data}
    (each : List.Forall₂ (fun item other => ∀ path, Outcome.Follows relates
      (constructSingle model mode field.range path item) (constructSingle model otherMode field.range path other))
      items others) :
    Outcome.Follows relates (constructValue model mode field path (.list items))
      (constructValue model otherMode field path (.list others)) := by
  cases several : field.multivalued with
  | false =>
    obtain ⟨error, atPath, left⟩ := exists_constructSingle_list model mode field.range path items
    obtain ⟨other, alsoAtPath, right⟩ := exists_constructSingle_list model otherMode field.range path others
    simp only [constructValue, several, Bool.false_eq_true, if_false, left, right]
    exact .fault compares (atPath.trans alsoAtPath.symm)
  | true =>
    have parts : Outcome.Follows relates (.list (constructItems model mode field.range path 0 items))
        (.list (constructItems model otherMode field.range path 0 others)) := follows_constructItems compares each 0
    have sameEmpty : items.isEmpty = others.isEmpty := by cases each <;> rfl
    simp only [constructValue, several, if_true, sameEmpty]
    split
    · exact ⟨compares.append (compares.refl [path]) parts.paths, nofun⟩
    · exact parts

theorem follows_constructValue_map {field : Field} {path : String} {entries others : Table Data}
    (each : ∀ className classModel, field.range = .instanceOf className → model.class? className = some classModel →
      Outcome.Follows relates (constructEntries model mode classModel path entries)
        (constructEntries model otherMode classModel path others)) :
    Outcome.Follows relates (constructValue model mode field path (.map entries))
      (constructValue model otherMode field path (.map others)) := by
  cases several : field.multivalued with
  | true =>
    simp only [constructValue, several, if_true]
    exact .fault compares rfl
  | false =>
    simp only [constructValue, several, Bool.false_eq_true, if_false]
    exact follows_constructSingle_map compares each

/-- Where one construction follows another one, so do the results: the paths that are reported are related, and
what succeeds in the other succeeds alike. -/
theorem follows_constructClass {classModel : ClassModel} {entries others : Table Data}
    (parts : Outcome.Follows relates (constructEntries model mode classModel "" entries)
      (constructEntries model otherMode classModel "" others)) :
    relates ((reported (constructClass model mode classModel entries)).map CoercionError.path)
        ((reported (constructClass model otherMode classModel others)).map CoercionError.path) ∧
      ∀ instanceValue, constructClass model otherMode classModel others = .ok instanceValue →
        constructClass model mode classModel entries = .ok instanceValue := by
  rw [reported_constructClass, reported_constructClass]
  refine ⟨parts.paths, ?_⟩
  intro instanceValue success
  obtain ⟨faultless, rfl⟩ := constructClass_eq_ok_iff.mp success
  have related := parts.paths
  rw [Outcome.paths, Outcome.paths, faultless] at related
  rw [constructClass_eq_ok_iff, parts.value faultless]
  exact ⟨List.map_eq_nil_iff.mp (compares.eq_nil related), rfl⟩

end ObjectModel

end ClassSchema
