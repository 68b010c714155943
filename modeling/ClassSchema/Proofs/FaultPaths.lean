import Mathlib.Data.List.Nodup
import ClassSchema.Proofs.Digits
import ClassSchema.Proofs.Outcomes

/-! # Paths of faults

A path names a place in the data. Where no name has a point or a bracket in it, different places have paths that
do not lead into each other, unless one place is a part of the other. So every fault has a path of its own, and
all faults of a place stand together.
-/

namespace ClassSchema

/-- Whether a character goes on from a path: to an attribute, or to an item. -/
def isPathMark (c : Char) : Bool :=
  c == '.' || c == '['

/-- Whether a name can stand in paths: it is not empty, and no character in it goes on from a path. -/
def IsPathName (name : String) : Prop :=
  name ≠ "" ∧ ∀ c ∈ name.toList, isPathMark c = false

instance : DecidablePred IsPathName := fun name =>
  decidable_of_iff (name ≠ "" ∧ (name.toList.all fun c => !isPathMark c) = true) (by simp [IsPathName])

/-- Whether a path is that of a place, or goes on from there. -/
def LeadsInto (place path : String) : Prop :=
  path = place ∨ (place ++ ".").toList <+: path.toList ∨ (place ++ "[").toList <+: path.toList

instance (place path : String) : Decidable (LeadsInto place path) :=
  inferInstanceAs (Decidable (_ ∨ _ ∨ _))

/-- Whether characters may follow the path of a place: none, or some that go on from there. -/
def GoesOn (tail : List Char) : Prop :=
  tail = [] ∨ ∃ mark rest, tail = mark :: rest ∧ isPathMark mark = true

theorem leadsInto_iff {place path : String} :
    LeadsInto place path ↔ ∃ tail, path.toList = place.toList ++ tail ∧ GoesOn tail := by
  constructor
  · rintro (rfl | ⟨rest, split⟩ | ⟨rest, split⟩)
    · exact ⟨[], (List.append_nil _).symm, .inl rfl⟩
    · exact ⟨'.' :: rest, by simp [← split], .inr ⟨'.', rest, rfl, rfl⟩⟩
    · exact ⟨'[' :: rest, by simp [← split], .inr ⟨'[', rest, rfl, rfl⟩⟩
  · rintro ⟨tail, split, rfl | ⟨mark, rest, rfl, isMark⟩⟩
    · rw [List.append_nil] at split
      exact .inl (String.toList_injective split)
    · simp only [isPathMark, Bool.or_eq_true, beq_iff_eq] at isMark
      rcases isMark with rfl | rfl
      · exact .inr (.inl ⟨rest, by simp [split]⟩)
      · exact .inr (.inr ⟨rest, by simp [split]⟩)

theorem LeadsInto.refl (place : String) : LeadsInto place place :=
  .inl rfl

theorem LeadsInto.trans {outer inner path : String} (first : LeadsInto outer inner) (second : LeadsInto inner path) :
    LeadsInto outer path := by
  rw [leadsInto_iff] at first second ⊢
  obtain ⟨tail, isInner, goesOn⟩ := first
  obtain ⟨rest, isPath, further⟩ := second
  refine ⟨tail ++ rest, by rw [isPath, isInner, List.append_assoc], ?_⟩
  rcases goesOn with rfl | ⟨mark, others, rfl, isMark⟩
  · exact further
  · exact .inr ⟨mark, others ++ rest, rfl, isMark⟩

/-- A name ends where a path goes on. -/
theorem eq_of_append_goesOn {name other tail rest : List Char} (isName : ∀ c ∈ name, isPathMark c = false)
    (isOther : ∀ c ∈ other, isPathMark c = false) (ends : GoesOn tail) (otherEnds : GoesOn rest)
    (same : name ++ tail = other ++ rest) : name = other := by
  have taken {name tail : List Char} (isName : ∀ c ∈ name, isPathMark c = false) (ends : GoesOn tail) :
      (name ++ tail).takeWhile (fun c => !isPathMark c) = name := by
    rw [List.takeWhile_append_of_pos fun c member => by rw [isName c member]; rfl]
    rcases ends with rfl | ⟨mark, others, rfl, isMark⟩
    · simp
    · simp [isMark]
  rw [← taken isName ends, same, taken isOther otherEnds]

theorem toList_joinPath (path name : String) :
    (joinPath path name).toList = if path = "" then name.toList else path.toList ++ '.' :: name.toList := by
  unfold joinPath
  by_cases none : path = ""
  · simp [none]
  · simp [none]

theorem joinPath_ne_empty {name : String} (isName : IsPathName name) (path : String) : joinPath path name ≠ "" := by
  intro empty
  have noChars := congrArg String.toList empty
  rw [toList_joinPath] at noChars
  split at noChars
  · exact isName.1 (String.toList_injective noChars)
  · simp at noChars

theorem leadsInto_joinPath {path : String} (given : path ≠ "") (name : String) :
    LeadsInto path (joinPath path name) := by
  rw [leadsInto_iff, toList_joinPath, if_neg given]
  exact ⟨'.' :: name.toList, rfl, .inr ⟨'.', name.toList, rfl, rfl⟩⟩

theorem toList_itemPath (path : String) (index : Nat) :
    (itemPath path index).toList = path.toList ++ '[' :: (Nat.toDigits 10 index ++ [']']) := by
  have parts : itemPath path index = path ++ "[" ++ toString index ++ "]" := rfl
  simp [parts]

theorem itemPath_ne_empty (path : String) (index : Nat) : itemPath path index ≠ "" := by
  intro empty
  have noChars := congrArg String.toList empty
  simp [toList_itemPath] at noChars

theorem leadsInto_itemPath (path : String) (index : Nat) : LeadsInto path (itemPath path index) := by
  rw [leadsInto_iff, toList_itemPath]
  exact ⟨_, rfl, .inr ⟨'[', _, rfl, rfl⟩⟩

/-- No path leads into two attributes of a place. -/
theorem eq_of_leadsInto_joinPath {path left right inner : String} (isLeft : IsPathName left)
    (isRight : IsPathName right) (inLeft : LeadsInto (joinPath path left) inner)
    (inRight : LeadsInto (joinPath path right) inner) : left = right := by
  rw [leadsInto_iff, toList_joinPath] at inLeft inRight
  obtain ⟨tail, isInner, ends⟩ := inLeft
  obtain ⟨rest, alsoInner, otherEnds⟩ := inRight
  have same := isInner.symm.trans alsoInner
  apply String.toList_injective
  split at same
  · exact eq_of_append_goesOn isLeft.2 isRight.2 ends otherEnds same
  · rw [List.append_assoc, List.append_assoc] at same
    have behind := (List.cons.inj (List.append_cancel_left same)).2
    exact eq_of_append_goesOn isLeft.2 isRight.2 ends otherEnds behind

/-- No path leads into two items of a place. -/
theorem eq_of_leadsInto_itemPath {path inner : String} {left right : Nat}
    (inLeft : LeadsInto (itemPath path left) inner) (inRight : LeadsInto (itemPath path right) inner) :
    left = right := by
  rw [leadsInto_iff, toList_itemPath] at inLeft inRight
  obtain ⟨tail, isInner, _⟩ := inLeft
  obtain ⟨rest, alsoInner, _⟩ := inRight
  have same := isInner.symm.trans alsoInner
  simp only [List.append_assoc, List.append_cancel_left_eq, List.cons_append, List.cons.injEq, true_and,
    List.nil_append] at same
  have taken (n : Nat) (behind : List Char) :
      (Nat.toDigits 10 n ++ ']' :: behind).takeWhile Char.isDigit = Nat.toDigits 10 n := by
    rw [List.takeWhile_append_of_pos (List.all_eq_true.mp (isDigit_toDigits n))]
    simp
  have digits : Nat.toDigits 10 left = Nat.toDigits 10 right := by rw [← taken left tail, same, taken]
  rw [← decimalValue_toDigits left, digits, decimalValue_toDigits]

/-- Whether data stands somewhere in data, be it the whole. -/
inductive Data.Occurs (inner : Data) : Data → Prop
  | here : Occurs inner inner
  | item {items : List Data} {item : Data} (member : item ∈ items) (inside : Occurs inner item) :
      Occurs inner (.list items)
  | entry {entries : Table Data} {key : String} {data : Data} (member : (key, data) ∈ entries)
      (inside : Occurs inner data) : Occurs inner (.map entries)

/-- Whether no map in the data repeats a key, and all keys can stand in paths. -/
structure Data.IsAddressable (data : Data) : Prop where
  distinct : data.HasDistinctKeys
  names : ∀ entries, Data.Occurs (.map entries) data → ∀ key ∈ Table.keys entries, IsPathName key

/-- Whether the names of all attributes can stand in paths. -/
def ObjectModel.HasPathNames (model : ObjectModel) : Prop :=
  ∀ className classModel, model.class? className = some classModel →
    ∀ field ∈ classModel.fields, IsPathName field.name

theorem ObjectModel.hasPathNames_of_classes {model : ObjectModel}
    (names : ∀ entry ∈ model.classes, ∀ field ∈ entry.2.fields, IsPathName field.name) : model.HasPathNames :=
  fun _ _ found => names _ (Table.mem_of_get? found)

theorem Data.isAddressable_of_noParts {data : Data} (noList : ∀ items, data ≠ .list items)
    (noMap : ∀ entries, data ≠ .map entries) : data.IsAddressable := by
  cases data with
  | list items => exact absurd rfl (noList items)
  | map entries => exact absurd rfl (noMap entries)
  | _ => exact ⟨trivial, fun _ occurs => nomatch occurs⟩

theorem Data.isAddressable_list_iff {items : List Data} :
    (Data.list items).IsAddressable ↔ ∀ item ∈ items, item.IsAddressable := by
  constructor
  · intro addressable item member
    exact ⟨hasDistinctKeys_list_iff.mp addressable.distinct item member,
      fun entries inside => addressable.names entries (.item member inside)⟩
  · intro each
    refine ⟨hasDistinctKeys_list_iff.mpr fun item member => (each item member).distinct, ?_⟩
    intro entries occurs
    cases occurs with
    | item member inside => exact (each _ member).names entries inside

theorem Data.isAddressable_map_iff {entries : Table Data} :
    (Data.map entries).IsAddressable ↔ entries.keys.Nodup ∧ (∀ key ∈ entries.keys, IsPathName key) ∧
      ∀ entry ∈ entries, entry.2.IsAddressable := by
  constructor
  · intro addressable
    obtain ⟨distinct, each⟩ := hasDistinctKeys_map_iff.mp addressable.distinct
    exact ⟨distinct, addressable.names entries .here, fun entry member =>
      ⟨each entry member, fun inner inside => addressable.names inner (.entry member inside)⟩⟩
  · rintro ⟨distinct, areNames, each⟩
    refine ⟨hasDistinctKeys_map_iff.mpr ⟨distinct, fun entry member => (each entry member).distinct⟩, ?_⟩
    intro inner occurs
    cases occurs with
    | here => exact areNames
    | entry member inside => exact (each _ member).names inner inside

theorem Data.IsAddressable.item {items : List Data} (addressable : (Data.list items).IsAddressable) :
    ∀ item ∈ items, item.IsAddressable :=
  isAddressable_list_iff.mp addressable

theorem Data.IsAddressable.entry {entries : Table Data} (addressable : (Data.map entries).IsAddressable) :
    ∀ entry ∈ entries, entry.2.IsAddressable :=
  (isAddressable_map_iff.mp addressable).2.2

/-- Whether faults are about a place and all that stands there, each with a path of its own. -/
structure Owns (place : String) (errors : List CoercionError) : Prop where
  inside : ∀ error ∈ errors, LeadsInto place error.path
  distinct : (errors.map CoercionError.path).Nodup

theorem owns_nil (place : String) : Owns place [] :=
  ⟨nofun, .nil⟩

theorem owns_fault {place : String} {error : CoercionError} (atPlace : error.path = place) :
    Owns place (Outcome.fault error).errors := by
  constructor
  · intro other member
    rw [List.mem_singleton.mp member, atPlace]
    exact .refl place
  · simp [Outcome.fault]

/-- The faults of parts have paths of their own if no path leads into two parts. -/
theorem nodup_paths_of_parts {α : Type} {parts : List α} {place : α → String} {errors : α → List CoercionError}
    (each : ∀ part ∈ parts, Owns (place part) (errors part))
    (apart : parts.Pairwise fun left right => ∀ path, LeadsInto (place left) path → ¬ LeadsInto (place right) path) :
    ((parts.flatMap errors).map CoercionError.path).Nodup := by
  rw [List.map_flatMap, List.nodup_flatMap]
  refine ⟨fun part member => (each part member).distinct, ?_⟩
  apply apart.imp_of_mem
  intro left right isLeft isRight separate path inLeft inRight
  obtain ⟨error, isError, rfl⟩ := List.mem_map.mp inLeft
  obtain ⟨other, isOther, same⟩ := List.mem_map.mp inRight
  have meets := (each right isRight).inside other isOther
  rw [same] at meets
  exact separate _ ((each left isLeft).inside error isError) meets

theorem pairwise_apart_fields {fields : List Field} (distinct : (fields.map Field.name).Nodup)
    (areNames : ∀ field ∈ fields, IsPathName field.name) (path : String) :
    fields.Pairwise fun left right => ∀ inner, LeadsInto (joinPath path left.name) inner →
      ¬ LeadsInto (joinPath path right.name) inner := by
  apply (List.pairwise_map.mp distinct).imp_of_mem
  intro left right isLeft isRight differ inner inLeft inRight
  exact differ (eq_of_leadsInto_joinPath (areNames left isLeft) (areNames right isRight) inLeft inRight)

theorem pairwise_apart_items (items : List Data) (index : Nat) (path : String) :
    (items.zipIdx index).Pairwise fun left right => ∀ inner, LeadsInto (itemPath path left.2) inner →
      ¬ LeadsInto (itemPath path right.2) inner := by
  have positions : ((items.zipIdx index).map Prod.snd).Nodup := by
    rw [List.zipIdx_map_snd]
    exact List.nodup_range'
  apply (List.pairwise_map.mp positions).imp
  intro left right differ inner inLeft inRight
  exact differ (eq_of_leadsInto_itemPath inLeft inRight)

theorem exists_of_mem_unknownKeys {classModel : ClassModel} {path : String} {entries : Table Data}
    {error : CoercionError} (member : error ∈ Outcome.unknownKeys classModel path entries) :
    ∃ key ∈ classModel.undeclared entries, error.path = joinPath path key := by
  have atKey : error.path ∈ (Outcome.unknownKeys classModel path entries).map CoercionError.path :=
    List.mem_map_of_mem member
  rw [paths_unknownKeys] at atKey
  obtain ⟨key, isUndeclared, same⟩ := List.mem_map.mp atKey
  exact ⟨key, isUndeclared, same.symm⟩

/-- The fault of a key that is no attribute is within no attribute. -/
theorem not_leadsInto_of_mem_unknownKeys {classModel : ClassModel} {path : String} {entries : Table Data}
    (distinctNames : (classModel.fields.map Field.name).Nodup)
    (areNames : ∀ field ∈ classModel.fields, IsPathName field.name) (areKeys : ∀ key ∈ entries.keys, IsPathName key)
    {error : CoercionError} (member : error ∈ Outcome.unknownKeys classModel path entries) {field : Field}
    (isField : field ∈ classModel.fields) : ¬ LeadsInto (joinPath path field.name) error.path := by
  intro inside
  obtain ⟨key, isUndeclared, atKey⟩ := exists_of_mem_unknownKeys member
  obtain ⟨isKey, unknown⟩ := List.mem_filter.mp isUndeclared
  rw [atKey] at inside
  obtain rfl := eq_of_leadsInto_joinPath (areKeys key isKey) (areNames field isField) (.refl _) inside
  rw [(ClassModel.field?_eq_some_iff distinctNames).mpr ⟨isField, rfl⟩] at unknown
  cases unknown

namespace ObjectModel

variable {model : ObjectModel} {mode : CoercionMode}

/-- The faults of a map have paths of their own if those of each attribute have. -/
theorem nodup_paths_constructEntries {classModel : ClassModel} {path : String} {entries : Table Data}
    (distinctNames : (classModel.fields.map Field.name).Nodup)
    (areNames : ∀ field ∈ classModel.fields, IsPathName field.name) (distinctKeys : entries.keys.Nodup)
    (areKeys : ∀ key ∈ entries.keys, IsPathName key)
    (each : ∀ field ∈ classModel.fields, Owns (joinPath path field.name)
      (constructField model mode field (joinPath path field.name) entries).errors) :
    ((constructEntries model mode classModel path entries).errors.map CoercionError.path).Nodup := by
  have isKey (key : String) (member : key ∈ classModel.undeclared entries) : IsPathName key :=
    areKeys key (List.mem_filter.mp member).1
  rw [errors_constructEntries, List.map_append, List.nodup_append]
  refine ⟨?_, ?_, ?_⟩
  · rw [paths_unknownKeys]
    apply List.Nodup.map_on
    · intro left isLeft right isRight same
      exact eq_of_leadsInto_joinPath (isKey left isLeft) (isKey right isRight) (.refl _) (.inl same)
    · exact distinctKeys.filter _
  · exact nodup_paths_of_parts each (pairwise_apart_fields distinctNames areNames path)
  · rintro path₁ isUnknown path₂ isKnown rfl
    obtain ⟨unknown, fromKey, rfl⟩ := List.mem_map.mp isUnknown
    obtain ⟨error, isError, same⟩ := List.mem_map.mp isKnown
    obtain ⟨field, isField, inField⟩ := List.mem_flatMap.mp isError
    have inside := (each field isField).inside error inField
    rw [same] at inside
    exact not_leadsInto_of_mem_unknownKeys distinctNames areNames areKeys fromKey isField inside

theorem owns_constructSingle_of_noMap {data : Data} (noMap : ∀ entries, data ≠ .map entries) (range : Range)
    (path : String) : Owns path (constructSingle model mode range path data).errors := by
  rw [constructSingle_of_noMap model mode noMap]
  cases range with
  | scalar kind =>
    simp only [Outcome.scalar]
    split
    · exact owns_nil path
    · exact owns_fault rfl
  | instanceOf className =>
    simp only [Outcome.noInstance]
    split <;> exact owns_fault rfl

theorem owns_absent (field : Field) (path : String) : Owns path (Outcome.absent field path).errors := by
  unfold Outcome.absent
  split
  · exact owns_fault rfl
  · exact owns_nil path

theorem errors_constructItems (range : Range) (path : String) (index : Nat) (items : List Data) :
    (Outcome.list (constructItems model mode range path index items)).errors =
      (items.zipIdx index).flatMap fun item =>
        (constructSingle model mode range (itemPath path item.2) item.1).errors := by
  simp only [Outcome.list, constructItems_eq, List.flatMap_map]

theorem owns_each_item {range : Range} {items : List Data}
    (each : ∀ item ∈ items, ∀ path, path ≠ "" → Owns path (constructSingle model mode range path item).errors)
    (path : String) (index : Nat) : ∀ item ∈ items.zipIdx index, Owns (itemPath path item.2)
      (constructSingle model mode range (itemPath path item.2) item.1).errors := by
  rintro ⟨item, position⟩ member
  exact each item (List.fst_mem_of_mem_zipIdx member) _ (itemPath_ne_empty path position)

/-- The faults of items stay within the list. -/
theorem owns_constructItems {range : Range} {path : String} {items : List Data}
    (each : ∀ item ∈ items, ∀ path, path ≠ "" → Owns path (constructSingle model mode range path item).errors)
    (index : Nat) : Owns path (Outcome.list (constructItems model mode range path index items)).errors := by
  have own := owns_each_item each path index
  rw [errors_constructItems]
  constructor
  · intro error member
    obtain ⟨item, isItem, isError⟩ := List.mem_flatMap.mp member
    exact (leadsInto_itemPath path item.2).trans ((own item isItem).inside error isError)
  · exact nodup_paths_of_parts own (pairwise_apart_items items index path)

theorem owns_constructSingle {data : Data}
    (value : ∀ field path, path ≠ "" → Owns path (constructValue model mode field path data).errors) (range : Range)
    (path : String) (given : path ≠ "") : Owns path (constructSingle model mode range path data).errors := by
  by_cases isNull : data = .null
  · subst isNull
    exact owns_constructSingle_of_noMap (by simp) range path
  · have own := value (itemField range) path given
    rwa [constructValue_of_single model mode path rfl isNull] at own

theorem owns_constructField {field : Field} {path : String} {entries : Table Data}
    (value : ∀ entry ∈ entries, Owns path (constructValue model mode field path entry.2).errors) :
    Owns path (constructField model mode field path entries).errors := by
  rw [constructField_eq]
  cases read : entries.get? field.name with
  | none => exact owns_absent field path
  | some data => exact value _ (Table.mem_of_get? read)

/-- The faults of a map that stands at a path stay within it. -/
theorem owns_constructEntries {classModel : ClassModel} {path : String} (given : path ≠ "") {entries : Table Data}
    (distinct : ((constructEntries model mode classModel path entries).errors.map CoercionError.path).Nodup)
    (each : ∀ field ∈ classModel.fields, Owns (joinPath path field.name)
      (constructField model mode field (joinPath path field.name) entries).errors) :
    Owns path (constructEntries model mode classModel path entries).errors := by
  refine ⟨fun error member => ?_, distinct⟩
  rw [errors_constructEntries, List.mem_append] at member
  rcases member with isUnknown | isKnown
  · obtain ⟨key, _, atKey⟩ := exists_of_mem_unknownKeys isUnknown
    rw [atKey]
    exact leadsInto_joinPath given key
  · obtain ⟨field, isField, inField⟩ := List.mem_flatMap.mp isKnown
    exact (leadsInto_joinPath given field.name).trans ((each field isField).inside error inField)

theorem owns_constructValue_list {field : Field} {items : List Data}
    (each : ∀ item ∈ items, ∀ path, path ≠ "" → Owns path (constructSingle model mode field.range path item).errors)
    (path : String) : Owns path (constructValue model mode field path (.list items)).errors := by
  cases several : field.multivalued with
  | false =>
    simp only [constructValue, several, Bool.false_eq_true, if_false]
    exact owns_constructSingle_of_noMap (by simp) field.range path
  | true =>
    simp only [constructValue, several, if_true]
    split
    · -- the one fault of an empty list is that it is empty
      rename_i missing
      simp only [Bool.and_eq_true, List.isEmpty_iff] at missing
      rw [missing.1]
      exact owns_fault rfl
    · exact owns_constructItems each 0

theorem owns_constructValue_map {field : Field} {path : String} {entries : Table Data}
    (each : ∀ className classModel, field.range = .instanceOf className → model.class? className = some classModel →
      Owns path (constructEntries model mode classModel path entries).errors) :
    Owns path (constructValue model mode field path (.map entries)).errors := by
  cases several : field.multivalued with
  | true =>
    simp only [constructValue, several, if_true]
    exact owns_fault rfl
  | false =>
    simp only [constructValue, several, Bool.false_eq_true, if_false]
    rcases constructSingle_map_cases model field.range with refused | ⟨className, classModel, range, found⟩
    · obtain ⟨error, atPath, refused⟩ := refused mode path entries
      rw [refused]
      exact owns_fault atPath
    · rw [range, constructSingle_map model mode found]
      exact each className classModel range found

/-- The faults of the data for an attribute stay within it. -/
theorem owns_constructValue (wellFormed : model.WellFormed) (hasNames : model.HasPathNames) (data : Data) :
    data.IsAddressable → ∀ field path, path ≠ "" →
      Owns path (constructValue model mode field path data).errors := by
  induction data using Data.inductionOn with
  | leaf data noList noMap =>
    intro _ field path _
    cases data with
    | null => exact owns_absent field path
    | list items => exact absurd rfl (noList items)
    | map entries => exact absurd rfl (noMap entries)
    | _ =>
      simp only [constructValue]
      split
      · exact owns_fault rfl
      · exact owns_constructSingle_of_noMap noMap field.range path
  | list items ih =>
    intro addressable field path _
    apply owns_constructValue_list
    intro item member
    exact owns_constructSingle (ih item member (addressable.item item member)) field.range
  | map entries ih =>
    intro addressable field path given
    apply owns_constructValue_map
    intro className classModel _ found
    have areNames := hasNames className classModel found
    have each : ∀ inner ∈ classModel.fields, Owns (joinPath path inner.name)
        (constructField model mode inner (joinPath path inner.name) entries).errors := by
      intro inner isField
      apply owns_constructField
      intro entry member
      exact ih entry member (addressable.entry entry member) inner _ (joinPath_ne_empty (areNames inner isField) path)
    apply owns_constructEntries given _ each
    exact nodup_paths_constructEntries (wellFormed.distinct found) areNames addressable.distinct.1
      (addressable.names entries .here) each

variable (mode) in
/-- The faults of an attribute of a map stay within the attribute. -/
theorem owns_attribute (wellFormed : model.WellFormed) (hasNames : model.HasPathNames) {className : String}
    {classModel : ClassModel} (found : model.class? className = some classModel) {entries : Table Data}
    (addressable : (Data.map entries).IsAddressable) (path : String) : ∀ field ∈ classModel.fields,
      Owns (joinPath path field.name) (constructField model mode field (joinPath path field.name) entries).errors :=
  fun field isField => owns_constructField fun entry member => owns_constructValue wellFormed hasNames entry.2
    (addressable.entry entry member) field _ (joinPath_ne_empty (hasNames _ _ found field isField) path)

end ObjectModel

end ClassSchema
