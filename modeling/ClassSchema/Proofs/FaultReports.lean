import ClassSchema.Proofs.FaultPaths
import ClassSchema.Proofs.TypedInstances

/-! # Reports of faults

Construction reports the faults of a map with the keys that are no attributes in front, and then those of each
attribute in the order of the field table. No path leads into two of these, so what is reported at and behind the
path of a part is what construction finds in that part, and depends on nothing else: a fault neither hides nor
repeats nor moves the faults of other attributes, at any depth.
-/

namespace ClassSchema

/-- Whether a path is that of a place or goes on from there, where the path of the whole is empty. -/
def IsWithin (place path : String) : Prop :=
  place = "" ∨ LeadsInto place path

instance (place path : String) : Decidable (IsWithin place path) :=
  inferInstanceAs (Decidable (_ ∨ _))

/-- The faults within a place. -/
def faultsWithin (place : String) (errors : List CoercionError) : List CoercionError :=
  errors.filter fun error => IsWithin place error.path

/-- The faults that are neither at the path of a key nor behind it. -/
def faultsApart (key : String) (errors : List CoercionError) : List CoercionError :=
  errors.filter fun error => ¬ LeadsInto key error.path

theorem isWithin_iff {place path : String} (given : place ≠ "") : IsWithin place path ↔ LeadsInto place path :=
  or_iff_right given

theorem IsWithin.of_joinPath {place name path : String} (isName : IsPathName name)
    (within : IsWithin (joinPath place name) path) : IsWithin place path := by
  by_cases given : place = ""
  · exact .inl given
  · rw [isWithin_iff (joinPath_ne_empty isName place)] at within
    exact .inr ((leadsInto_joinPath given name).trans within)

theorem IsWithin.of_itemPath {place path : String} {index : Nat} (within : IsWithin (itemPath place index) path) :
    IsWithin place path := by
  rw [isWithin_iff (itemPath_ne_empty place index)] at within
  exact .inr ((leadsInto_itemPath place index).trans within)

theorem faultsWithin_whole (errors : List CoercionError) : faultsWithin "" errors = errors :=
  List.filter_eq_self.mpr fun _ _ => decide_eq_true (.inl rfl)

theorem faultsWithin_append (place : String) (left right : List CoercionError) :
    faultsWithin place (left ++ right) = faultsWithin place left ++ faultsWithin place right :=
  List.filter_append left right

theorem faultsApart_append (key : String) (left right : List CoercionError) :
    faultsApart key (left ++ right) = faultsApart key left ++ faultsApart key right :=
  List.filter_append left right

theorem faultsWithin_eq_nil {place : String} (given : place ≠ "") {errors : List CoercionError}
    (outside : ∀ error ∈ errors, ¬ LeadsInto place error.path) : faultsWithin place errors = [] := by
  rw [faultsWithin, List.filter_eq_nil_iff]
  intro error member
  rw [decide_eq_true_iff, isWithin_iff given]
  exact outside error member

theorem Owns.faultsWithin_eq {place : String} {errors : List CoercionError} (owns : Owns place errors) :
    faultsWithin place errors = errors :=
  List.filter_eq_self.mpr fun error member => decide_eq_true (.inr (owns.inside error member))

/-- The faults within a place of a place are among those within the outer one. -/
theorem faultsWithin_faultsWithin {outer inner : String} (inside : ∀ path, IsWithin inner path → IsWithin outer path)
    (errors : List CoercionError) : faultsWithin inner (faultsWithin outer errors) = faultsWithin inner errors := by
  rw [faultsWithin, faultsWithin, List.filter_filter]
  apply List.filter_congr
  intro error _
  by_cases within : IsWithin inner error.path
  · simp [within, inside _ within]
  · simp [within]

/-- Where no path leads into two parts, the faults within one part are its own. -/
theorem faultsWithin_flatMap {α : Type} {parts : List α} {place : α → String} {errors : α → List CoercionError}
    (each : ∀ part ∈ parts, Owns (place part) (errors part))
    (apart : parts.Pairwise fun left right => ∀ path, LeadsInto (place left) path → ¬ LeadsInto (place right) path)
    {part : α} (member : part ∈ parts) (given : place part ≠ "") :
    faultsWithin (place part) (parts.flatMap errors) = errors part := by
  obtain ⟨before, after, rfl⟩ := List.append_of_mem member
  obtain ⟨_, fromPart, acrossPart⟩ := List.pairwise_append.mp apart
  have own := each part member
  have noneBefore : faultsWithin (place part) (before.flatMap errors) = [] := by
    apply faultsWithin_eq_nil given
    intro error isError
    obtain ⟨other, isOther, inOther⟩ := List.mem_flatMap.mp isError
    have inside := (each other (List.mem_append_left _ isOther)).inside error inOther
    exact acrossPart other isOther part List.mem_cons_self _ inside
  have noneAfter : faultsWithin (place part) (after.flatMap errors) = [] := by
    apply faultsWithin_eq_nil given
    intro error isError inPart
    obtain ⟨other, isOther, inOther⟩ := List.mem_flatMap.mp isError
    have inside := (each other (List.mem_append_right _ (List.mem_cons_of_mem _ isOther))).inside error inOther
    exact (List.pairwise_cons.mp fromPart).1 other isOther _ inPart inside
  rw [List.flatMap_append, List.flatMap_cons, faultsWithin_append, faultsWithin_append, noneBefore, noneAfter,
    own.faultsWithin_eq, List.nil_append, List.append_nil]

theorem Owns.faultsApart_eq_nil {place : String} {errors : List CoercionError} (owns : Owns place errors) :
    faultsApart place errors = [] :=
  List.filter_eq_nil_iff.mpr fun error member => by simpa using owns.inside error member

/-- The keys that are no attributes, apart from one key, are those of the map without the key. -/
theorem faultsApart_unknownKeys (classModel : ClassModel) (path : String) {entries : Table Data} {key : String}
    (isKey : IsPathName key) (areKeys : ∀ key ∈ entries.keys, IsPathName key) :
    faultsApart (joinPath path key) (Outcome.unknownKeys classModel path entries) =
      Outcome.unknownKeys classModel path (entries.filter fun entry => entry.1 ≠ key) := by
  rw [faultsApart, Outcome.unknownKeys, Outcome.unknownKeys, List.filter_filterMap, List.filterMap_filter]
  apply List.filterMap_congr
  rintro ⟨name, data⟩ member
  have leads : LeadsInto (joinPath path key) (joinPath path name) ↔ name = key := by
    constructor
    · exact eq_of_leadsInto_joinPath (areKeys name (List.mem_map_of_mem member)) isKey (.refl _)
    · rintro rfl
      exact .refl _
  cases declared : (classModel.field? name).isSome with
  | true => simp [declared]
  | false => simp [declared, Option.filter, leads]

/-- Whether construction for a class, from a map, comes at a path to a map that it takes for an instance of a
class. -/
inductive ObjectModel.Reaches (model : ObjectModel) (classModel : ClassModel) (entries : Table Data) :
    String → ClassModel → Table Data → Prop
  | whole : Reaches model classModel entries "" classModel entries
  | inAttribute {path className : String} {outer inner : ClassModel} {parts nested : Table Data} {field : Field}
      (outside : Reaches model classModel entries path outer parts) (isField : field ∈ outer.fields)
      (single : field.multivalued = false) (range : field.range = .instanceOf className)
      (found : model.class? className = some inner) (read : parts.get? field.name = some (.map nested)) :
      Reaches model classModel entries (joinPath path field.name) inner nested
  | inItem {path className : String} {outer inner : ClassModel} {parts nested : Table Data} {field : Field}
      {items : List Data} {index : Nat} (outside : Reaches model classModel entries path outer parts)
      (isField : field ∈ outer.fields) (several : field.multivalued = true)
      (range : field.range = .instanceOf className) (found : model.class? className = some inner)
      (read : parts.get? field.name = some (.list items)) (isItem : items[index]? = some (.map nested)) :
      Reaches model classModel entries (itemPath (joinPath path field.name) index) inner nested

/-- Whether faults are those of a map that stands at a path, in order: first those of the keys that are no
attributes, then those of each attribute, which are at its path or behind it, in the order of the field table. -/
def ClassModel.ReportsInOrder (classModel : ClassModel) (path : String) (entries : Table Data)
    (errors : List CoercionError) : Prop :=
  ∃ unknown attributes, errors = unknown ++ attributes.flatten ∧
    unknown.map CoercionError.path = (classModel.undeclared entries).map (joinPath path) ∧
      List.Forall₂ (fun field faults => ∀ error ∈ faults, LeadsInto (joinPath path field.name) error.path)
        classModel.fields attributes

namespace ObjectModel

variable {model : ObjectModel} {mode : CoercionMode} (wellFormed : model.WellFormed)
  (hasNames : model.HasPathNames)
include wellFormed hasNames

section Entries

variable {className : String} {classModel : ClassModel} (found : model.class? className = some classModel)
  {entries : Table Data} (addressable : (Data.map entries).IsAddressable)
include found addressable

/-- The faults within an attribute of a map are those that construction of the attribute finds. -/
theorem faultsWithin_constructEntries (path : String) {field : Field} (isField : field ∈ classModel.fields)
    {data : Data} (read : entries.get? field.name = some data) :
    faultsWithin (joinPath path field.name) (constructEntries model mode classModel path entries).errors =
      (constructValue model mode field (joinPath path field.name) data).errors := by
  have areNames := hasNames className classModel found
  have distinct := wellFormed.distinct found
  have given := joinPath_ne_empty (areNames field isField) path
  have noneUnknown : faultsWithin (joinPath path field.name) (Outcome.unknownKeys classModel path entries) = [] :=
    faultsWithin_eq_nil given fun error member =>
      not_leadsInto_of_mem_unknownKeys distinct areNames (addressable.names entries .here) member isField
  have own := faultsWithin_flatMap (owns_attribute mode wellFormed hasNames found addressable path)
    (pairwise_apart_fields distinct areNames path) isField given
  rw [errors_constructEntries, faultsWithin_append, noneUnknown, List.nil_append, own, constructField_eq, read]

theorem reportsInOrder_constructEntries (path : String) : classModel.ReportsInOrder path entries
    (constructEntries model mode classModel path entries).errors := by
  refine ⟨Outcome.unknownKeys classModel path entries, classModel.fields.map fun field =>
    (constructField model mode field (joinPath path field.name) entries).errors, ?_, ?_, ?_⟩
  · rw [errors_constructEntries, List.flatMap_def]
  · exact paths_unknownKeys classModel path entries
  · rw [List.forall₂_map_right_iff, List.forall₂_same]
    intro field isField
    exact (owns_attribute mode wellFormed hasNames found addressable path field isField).inside

end Entries

/-- The faults within an item of a list are those that construction of the item finds. -/
theorem faultsWithin_constructValue_item {field : Field} (several : field.multivalued = true) {items : List Data}
    (addressable : (Data.list items).IsAddressable) {index : Nat} {item : Data} (isItem : items[index]? = some item)
    (path : String) :
    faultsWithin (itemPath path index) (constructValue model mode field path (.list items)).errors =
      (constructSingle model mode field.range (itemPath path index) item).errors := by
  have notEmpty : items.isEmpty = false := by
    cases items with
    | nil => cases isItem
    | cons => rfl
  have each : ∀ item ∈ items, ∀ path, path ≠ "" →
      Owns path (constructSingle model mode field.range path item).errors := fun item member =>
    owns_constructSingle (owns_constructValue wellFormed hasNames item (addressable.item item member)) field.range
  simp only [constructValue, several, if_true, notEmpty, Bool.false_and, Bool.false_eq_true, if_false]
  have isPart : (item, index) ∈ items.zipIdx := List.mem_zipIdx_iff_getElem?.mpr isItem
  have own := faultsWithin_flatMap (owns_each_item each path 0) (pairwise_apart_items items 0 path) isPart
    (itemPath_ne_empty path index)
  rwa [errors_constructItems]

variable (mode) in
/-- What construction reports within a map that it comes to is what it finds in this map alone. -/
theorem Reaches.faultsWithin_eq {className : String} {classModel inner : ClassModel} {entries nested : Table Data}
    {path : String} (reaches : Reaches model classModel entries path inner nested)
    (found : model.class? className = some classModel) (addressable : (Data.map entries).IsAddressable) :
    (∃ className, model.class? className = some inner) ∧ (Data.map nested).IsAddressable ∧
      faultsWithin path (constructEntries model mode classModel "" entries).errors =
        (constructEntries model mode inner path nested).errors := by
  induction reaches with
  | whole => exact ⟨⟨className, found⟩, addressable, faultsWithin_whole _⟩
  | @inAttribute path className outer inner parts nested field _ isField single range foundInner read ih =>
    obtain ⟨⟨outerName, foundOuter⟩, ofOuter, own⟩ := ih
    have isName := hasNames outerName outer foundOuter field isField
    refine ⟨⟨className, foundInner⟩, ofOuter.entry _ (Table.mem_of_get? read), ?_⟩
    rw [← faultsWithin_faultsWithin fun _ => .of_joinPath isName, own,
      faultsWithin_constructEntries wellFormed hasNames foundOuter ofOuter path isField read]
    simp only [constructValue, single, Bool.false_eq_true, if_false, range,
      constructSingle_map model mode foundInner]
  | @inItem path className outer inner parts nested field items index _ isField several range foundInner read isItem
      ih =>
    obtain ⟨⟨outerName, foundOuter⟩, ofOuter, own⟩ := ih
    have isName := hasNames outerName outer foundOuter field isField
    have ofItems := ofOuter.entry _ (Table.mem_of_get? read)
    refine ⟨⟨className, foundInner⟩, ofItems.item _ (List.mem_of_getElem? isItem), ?_⟩
    rw [← faultsWithin_faultsWithin fun _ => .of_itemPath, ← faultsWithin_faultsWithin fun _ => .of_joinPath isName,
      own, faultsWithin_constructEntries wellFormed hasNames foundOuter ofOuter path isField read,
      faultsWithin_constructValue_item wellFormed hasNames several ofItems isItem, range,
      constructSingle_map model mode foundInner]

/-- What construction reports apart from one key does not depend on what is given for the key. -/
theorem faultsApart_constructEntries {className : String} {classModel : ClassModel}
    (found : model.class? className = some classModel) {entries others : Table Data}
    (addressable : (Data.map entries).IsAddressable) (othersAddressable : (Data.map others).IsAddressable)
    {key : String} (isKey : IsPathName key)
    (same : (entries.filter fun entry => entry.1 ≠ key) = others.filter fun entry => entry.1 ≠ key) (path : String) :
    faultsApart (joinPath path key) (constructEntries model mode classModel path entries).errors =
      faultsApart (joinPath path key) (constructEntries model mode classModel path others).errors := by
  have attributes : ∀ field ∈ classModel.fields, faultsApart (joinPath path key)
        (constructField model mode field (joinPath path field.name) entries).errors =
      faultsApart (joinPath path key)
        (constructField model mode field (joinPath path field.name) others).errors := by
    intro field isField
    by_cases atKey : field.name = key
    · subst atKey
      rw [(owns_attribute mode wellFormed hasNames found addressable path field isField).faultsApart_eq_nil,
        (owns_attribute mode wellFormed hasNames found othersAddressable path field isField).faultsApart_eq_nil]
    · rw [constructField_eq, constructField_eq, ← Table.get?_filter_ne atKey entries, same,
        Table.get?_filter_ne atKey others]
  have unknown := faultsApart_unknownKeys classModel path isKey (addressable.names entries .here)
  have otherUnknown := faultsApart_unknownKeys classModel path isKey (othersAddressable.names others .here)
  rw [same] at unknown
  rw [errors_constructEntries, errors_constructEntries, faultsApart_append, faultsApart_append, unknown, otherUnknown,
    faultsApart, faultsApart, List.filter_flatMap, List.filter_flatMap]
  exact congrArg _ (List.flatMap_congr attributes)

end ObjectModel

/-- Construction reports every fault of addressable data once, whatever else is at fault. Of two maps that differ
only in one key, the faults apart from this key are the same in the same order. No two faults have one path. And
the faults within any map that construction comes to are in order: first its keys that are no attributes, then
its attributes in the order of the field table. -/
theorem ObjectModel.reported_of_isAddressable {document : Document} {model : ObjectModel}
    (modelled : ofDocument document = .ok model) (hasNames : model.HasPathNames) (mode : CoercionMode)
    {className : String} {classModel : ClassModel} (found : model.class? className = some classModel)
    {entries others : Table Data} (addressable : (Data.map entries).IsAddressable)
    (othersAddressable : (Data.map others).IsAddressable) {key : String}
    (same : (entries.filter fun entry => entry.1 ≠ key) = others.filter fun entry => entry.1 ≠ key) :
    faultsApart key (reported (constructClass model mode classModel entries)) =
        faultsApart key (reported (constructClass model mode classModel others)) ∧
      ((reported (constructClass model mode classModel entries)).map CoercionError.path).Nodup ∧
        ∀ path inner nested, Reaches model classModel entries path inner nested →
          inner.ReportsInOrder path nested
            (faultsWithin path (reported (constructClass model mode classModel entries))) := by
  have wellFormed := wellFormed_of_ofDocument modelled
  simp only [reported_constructClass]
  refine ⟨?_, ?_, ?_⟩
  · by_cases isKey : IsPathName key
    · exact faultsApart_constructEntries wellFormed hasNames found addressable othersAddressable isKey same ""
    · -- a key that cannot stand in paths is in neither map
      have absent {table : Table Data} (addressable : (Data.map table).IsAddressable) :
          (table.filter fun entry => entry.1 ≠ key) = table := by
        rw [List.filter_eq_self]
        intro entry member
        rw [decide_eq_true_iff]
        rintro rfl
        exact isKey (addressable.names table .here _ (List.mem_map_of_mem member))
      rw [absent addressable, absent othersAddressable] at same
      rw [same]
  · exact nodup_paths_constructEntries (wellFormed.distinct found) (hasNames _ _ found) addressable.distinct.1
      (addressable.names entries .here) (owns_attribute mode wellFormed hasNames found addressable "")
  · intro path inner nested reaches
    obtain ⟨⟨_, foundInner⟩, nestedAddressable, own⟩ :=
      reaches.faultsWithin_eq mode wellFormed hasNames found addressable
    rw [own]
    exact reportsInOrder_constructEntries wellFormed hasNames foundInner nestedAddressable path

/-- A picture without page, with a place that is no number and a key that is no attribute. -/
def Data.damagedPicture : Table Data :=
  [("wide", .bool true), ("place", .text "x")]

/-- An album with one damaged picture. -/
def Data.damagedPictures : Table Data :=
  [("pictures", .list [.map damagedPicture])]

theorem Data.isAddressable_damagedPictures : (Data.map damagedPictures).IsAddressable := by
  have ofPicture : (Data.map damagedPicture).IsAddressable := by
    refine isAddressable_map_iff.mpr ⟨by decide, by decide +kernel, ?_⟩
    rw [damagedPicture, List.forall_mem_cons, List.forall_mem_singleton]
    exact ⟨isAddressable_of_noParts (by simp) (by simp), isAddressable_of_noParts (by simp) (by simp)⟩
  refine isAddressable_map_iff.mpr ⟨by decide, by decide +kernel, ?_⟩
  rw [damagedPictures, List.forall_mem_singleton, isAddressable_list_iff, List.forall_mem_singleton]
  exact ofPicture

/-- A title, which is no attribute of albums, is one more fault in front of those of the picture. -/
theorem ObjectModel.reported_of_isAddressable_album :
    let titled : Table Data := ("title", .text "Sea") :: Data.damagedPictures
    (reported (album.constructClass .lenient .album titled)).map CoercionError.path =
        ["title", "pictures[0].wide", "pictures[0].page", "pictures[0].place"] ∧
      faultsApart "title" (reported (album.constructClass .lenient .album titled)) =
        faultsApart "title" (reported (album.constructClass .lenient .album Data.damagedPictures)) ∧
      ClassModel.picture.ReportsInOrder "pictures[0]" Data.damagedPicture
        (faultsWithin "pictures[0]" (reported (album.constructClass .lenient .album titled))) := by
  intro titled
  have pictures := Data.isAddressable_damagedPictures
  have addressable : (Data.map titled).IsAddressable := by
    refine Data.isAddressable_map_iff.mpr ⟨by decide, by decide +kernel, ?_⟩
    exact List.forall_mem_cons.mpr ⟨Data.isAddressable_of_noParts (by simp) (by simp), pictures.entry⟩
  have hasNames : album.HasPathNames := hasPathNames_of_classes (by decide +kernel)
  have isAlbum : album.class? "Album" = some .album := rfl
  have isPicture : album.class? "Picture" = some .picture := rfl
  have same : (titled.filter fun entry => entry.1 ≠ "title") =
      Data.damagedPictures.filter fun entry => entry.1 ≠ "title" := rfl
  have isField : Field.pictures ∈ ClassModel.album.fields := List.mem_cons_self
  have isItem : [Data.map Data.damagedPicture][0]? = some (.map Data.damagedPicture) := rfl
  have reaches := Reaches.whole.inItem isField rfl rfl isPicture (rfl : titled.get? "pictures" = _) isItem
  have place : itemPath (joinPath "" "pictures") 0 = "pictures[0]" := by decide +kernel
  obtain ⟨apart, _, inOrder⟩ :=
    reported_of_isAddressable ofDocument_album hasNames .lenient isAlbum addressable pictures same
  refine ⟨by decide +kernel, apart, ?_⟩
  rw [← place]
  exact inOrder _ _ _ reaches

end ClassSchema
