import ClassSchema.Proofs.Outcomes
import ClassSchema.Proofs.TypedInstances

/-! # Rearranged maps

Construction looks up what is given for each attribute, and takes null as if nothing were given. So the order of
keys does not matter, nor do nulls for attributes, neither in the whole map nor in a map within it from which an
instance is constructed: the instance is the same, or else faults are found at the same paths.
-/

namespace ClassSchema

namespace Outcome

theorem Follows.errors_eq_nil_iff {α : Type} {outcome other : Outcome α} (follows : Follows List.Perm outcome other) :
    outcome.errors = [] ↔ other.errors = [] := by
  have paths : outcome.paths.length = other.paths.length := follows.paths.length_eq
  rw [Outcome.paths, Outcome.paths, List.length_map, List.length_map] at paths
  rw [← List.length_eq_zero_iff, paths, List.length_eq_zero_iff]

theorem Follows.symm {α : Type} {outcome other : Outcome α} (follows : Follows List.Perm outcome other) :
    Follows List.Perm other outcome :=
  ⟨follows.paths.symm, fun faultless => (follows.value (follows.errors_eq_nil_iff.mp faultless)).symm⟩

theorem Follows.trans {α : Type} {first second third : Outcome α} (left : Follows List.Perm first second)
    (right : Follows List.Perm second third) : Follows List.Perm first third :=
  ⟨left.paths.trans right.paths, fun faultless =>
    (left.value (right.errors_eq_nil_iff.mpr faultless)).trans (right.value faultless)⟩

end Outcome

/-- Whether maps for a class differ only in the order of keys and in nulls for attributes, themselves and the maps
within them that are given for instances. -/
inductive ObjectModel.Rearranges (model : ObjectModel) : ClassModel → Table Data → Table Data → Prop
  | reorder {classModel : ClassModel} {entries others : Table Data} (reordered : entries.Perm others) :
      Rearranges model classModel entries others
  | addNull {classModel : ClassModel} {entries : Table Data} {name : String}
      (declared : (classModel.field? name).isSome = true) (fresh : name ∉ entries.keys) :
      Rearranges model classModel entries ((name, .null) :: entries)
  | inAttribute {classModel inner : ClassModel} {field : Field} {key className : String}
      {parts otherParts rest : Table Data} (declared : classModel.field? key = some field)
      (range : field.range = .instanceOf className) (found : model.class? className = some inner)
      (inside : Rearranges model inner parts otherParts) :
      Rearranges model classModel ((key, .map parts) :: rest) ((key, .map otherParts) :: rest)
  | inItem {classModel inner : ClassModel} {field : Field} {key className : String}
      {parts otherParts rest : Table Data} (before after : List Data) (declared : classModel.field? key = some field)
      (range : field.range = .instanceOf className) (found : model.class? className = some inner)
      (inside : Rearranges model inner parts otherParts) :
      Rearranges model classModel ((key, .list (before ++ .map parts :: after)) :: rest)
        ((key, .list (before ++ .map otherParts :: after)) :: rest)
  | symm {classModel : ClassModel} {entries others : Table Data}
      (back : Rearranges model classModel others entries) : Rearranges model classModel entries others
  | trans {classModel : ClassModel} {entries between others : Table Data}
      (first : Rearranges model classModel entries between) (second : Rearranges model classModel between others) :
      Rearranges model classModel entries others

namespace ObjectModel

variable {model : ObjectModel} {mode : CoercionMode}

/-- A rearranged map repeats no key if the map does not. -/
theorem Rearranges.hasDistinctKeys_iff {classModel : ClassModel} {entries others : Table Data}
    (rearranges : Rearranges model classModel entries others) :
    (Data.map entries).HasDistinctKeys ↔ (Data.map others).HasDistinctKeys := by
  induction rearranges with
  | reorder reordered =>
    simp only [Data.hasDistinctKeys_map_iff, Table.keys, (reordered.map Prod.fst).nodup_iff, reordered.mem_iff]
  | addNull _ fresh =>
    rw [Data.hasDistinctKeys_map_iff, Data.hasDistinctKeys_map_iff, List.forall_mem_cons]
    apply and_congr
    · exact (List.nodup_cons.trans (and_iff_right fresh)).symm
    · exact (and_iff_right trivial).symm
  | inAttribute _ _ _ _ ih =>
    rw [Data.hasDistinctKeys_map_iff, Data.hasDistinctKeys_map_iff, List.forall_mem_cons, List.forall_mem_cons, ih]
    rfl
  | inItem _ _ _ _ _ _ ih =>
    simp only [Data.hasDistinctKeys_map_iff, List.forall_mem_cons, Data.hasDistinctKeys_list_iff,
      List.forall_mem_append, ih]
    rfl
  | symm _ ih => exact ih.symm
  | trans _ _ first second => exact first.trans second

theorem follows_of_perm (classModel : ClassModel) {entries others : Table Data} (distinct : entries.keys.Nodup)
    (reordered : entries.Perm others) (path : String) :
    Outcome.Follows List.Perm (constructEntries model mode classModel path entries)
      (constructEntries model mode classModel path others) := by
  apply follows_constructEntries comparesPaths_perm
  · exact (reordered.filterMap _).map _
  · intro field _
    rw [constructField_eq, constructField_eq, Table.get?_of_perm reordered distinct]
    exact .refl comparesPaths_perm _

/-- Null for an attribute is as if nothing were given. -/
theorem follows_addNull {classModel : ClassModel} {entries : Table Data} {name : String}
    (declared : (classModel.field? name).isSome = true) (fresh : name ∉ entries.keys) (path : String) :
    Outcome.Follows List.Perm (constructEntries model mode classModel path entries)
      (constructEntries model mode classModel path ((name, .null) :: entries)) := by
  apply follows_constructEntries comparesPaths_perm
  · simp [Outcome.unknownKeys, declared]
  · intro field _
    rw [constructField_eq, constructField_eq, Table.get?_cons]
    by_cases same : name = field.name
    · subst same
      rw [if_pos rfl, (Table.get?_eq_none_iff entries field.name).mpr fresh]
      exact .refl comparesPaths_perm _
    · rw [if_neg same]
      exact .refl comparesPaths_perm _

/-- What is given for one attribute may be replaced by what is constructed alike. -/
theorem follows_replace {classModel : ClassModel} (distinctNames : (classModel.fields.map Field.name).Nodup)
    {field : Field} {key : String} (declared : classModel.field? key = some field) {data other : Data}
    (alike : ∀ path, Outcome.Follows List.Perm (constructValue model mode field path data)
      (constructValue model mode field path other)) (rest : Table Data) (path : String) :
    Outcome.Follows List.Perm (constructEntries model mode classModel path ((key, data) :: rest))
      (constructEntries model mode classModel path ((key, other) :: rest)) := by
  apply follows_constructEntries comparesPaths_perm
  · rw [paths_unknownKeys, paths_unknownKeys]
    exact .refl _
  · intro candidate isField
    rw [constructField_eq, constructField_eq, Table.get?_cons, Table.get?_cons]
    by_cases same : key = candidate.name
    · have isDeclared := (ClassModel.field?_eq_some_iff distinctNames).mpr ⟨isField, same.symm⟩
      obtain rfl := Option.some.inj (isDeclared.symm.trans declared)
      rw [if_pos same, if_pos same]
      exact alike _
    · rw [if_neg same, if_neg same]
      exact .refl comparesPaths_perm _

/-- A range of instances is of one class. -/
theorem forall_class_of_found {motive : ClassModel → Prop} {range : Range} {className : String}
    {classModel : ClassModel} (isRange : range = .instanceOf className)
    (found : model.class? className = some classModel) (holds : motive classModel) :
    ∀ otherName other, range = .instanceOf otherName → model.class? otherName = some other → motive other := by
  intro otherName other sameRange foundOther
  obtain rfl := Range.instanceOf.inj (isRange.symm.trans sameRange)
  obtain rfl := Option.some.inj (found.symm.trans foundOther)
  exact holds

variable (mode) in
/-- Construction of a rearranged map finds faults at the same paths, and without faults makes the same instance. -/
theorem Rearranges.follows (wellFormed : model.WellFormed) {classModel : ClassModel} {entries others : Table Data}
    (rearranges : Rearranges model classModel entries others) :
    ∀ {className}, model.class? className = some classModel → (Data.map entries).HasDistinctKeys → ∀ path,
      Outcome.Follows List.Perm (constructEntries model mode classModel path entries)
        (constructEntries model mode classModel path others) := by
  induction rearranges with
  | reorder reordered =>
    intro _ _ distinct path
    exact follows_of_perm _ distinct.1 reordered path
  | addNull declared fresh =>
    intro _ _ _ path
    exact follows_addNull declared fresh path
  | inAttribute declared range foundInner _ ih =>
    intro _ found distinct path
    have distinctParts := (Data.hasDistinctKeys_map_iff.mp distinct).2 _ List.mem_cons_self
    refine follows_replace (wellFormed.distinct found) declared (fun path => ?_) _ path
    apply follows_constructValue_map comparesPaths_perm
    exact forall_class_of_found range foundInner (ih foundInner distinctParts path)
  | @inItem _ _ field _ _ parts otherParts _ before after declared range foundInner _ ih =>
    intro _ found distinct path
    have distinctItems := (Data.hasDistinctKeys_map_iff.mp distinct).2 _ List.mem_cons_self
    have distinctParts : (Data.map parts).HasDistinctKeys :=
      Data.hasDistinctKeys_list_iff.mp distinctItems _ (List.mem_append_right _ List.mem_cons_self)
    refine follows_replace (wellFormed.distinct found) declared (fun path => ?_) _ path
    apply follows_constructValue_list comparesPaths_perm
    have same (items : List Data) : List.Forall₂ (fun item other => ∀ path, Outcome.Follows List.Perm
        (constructSingle model mode field.range path item) (constructSingle model mode field.range path other))
        items items :=
      List.forall₂_same.mpr fun item _ path => .refl comparesPaths_perm _
    apply List.rel_append (same before)
    refine .cons (fun path => ?_) (same after)
    apply follows_constructSingle_map comparesPaths_perm
    exact forall_class_of_found range foundInner (ih foundInner distinctParts path)
  | symm back ih =>
    intro _ found distinct path
    exact (ih found (back.hasDistinctKeys_iff.mpr distinct) path).symm
  | trans first _ left right =>
    intro _ found distinct path
    exact (left found distinct path).trans (right found (first.hasDistinctKeys_iff.mp distinct) path)

/-- Neither the order of keys nor nulls for attributes matter to construction: it succeeds for both of two
rearranged maps, with the same instance, or it reports faults of both at the same paths. -/
theorem constructClass_of_rearranges {document : Document} (modelled : ofDocument document = .ok model)
    (mode : CoercionMode) {className : String} {classModel : ClassModel}
    (found : model.class? className = some classModel) {entries others : Table Data}
    (distinct : (Data.map entries).HasDistinctKeys) (rearranges : Rearranges model classModel entries others) :
    (∀ instanceValue, constructClass model mode classModel entries = .ok instanceValue ↔
      constructClass model mode classModel others = .ok instanceValue) ∧
    List.Perm ((reported (constructClass model mode classModel entries)).map CoercionError.path)
      ((reported (constructClass model mode classModel others)).map CoercionError.path) := by
  have alike := rearranges.follows mode (wellFormed_of_ofDocument modelled) found distinct ""
  obtain ⟨paths, back⟩ := follows_constructClass comparesPaths_perm alike
  obtain ⟨_, forth⟩ := follows_constructClass comparesPaths_perm alike.symm
  exact ⟨fun instanceValue => ⟨forth instanceValue, back instanceValue⟩, paths⟩

end ObjectModel

/-- The two pictures, with the page of the first one in front and null as the place of the second one. -/
def Data.rearrangedPictures : Table Data :=
  [("pictures", .list
    [.map [("page", .text "ex:sea"), ("place", .number "1")], .map [("place", .null), ("page", .text "ex:moon")]])]

theorem ObjectModel.rearranges_pictures : Rearranges album .album Data.pictures Data.rearrangedPictures := by
  have isField : ClassModel.album.field? "pictures" = some .pictures := rfl
  have isPicture : album.class? "Picture" = some .picture := rfl
  let sea : Table Data := [("page", .text "ex:sea"), ("place", .number "1")]
  let moon : Table Data := [("page", .text "ex:moon")]
  have first : Rearranges album .album Data.pictures [("pictures", .list [.map sea, .map moon])] :=
    .inItem [] _ isField rfl isPicture (.reorder (.swap ..))
  have second : Rearranges album .album [("pictures", .list [.map sea, .map moon])] Data.rearrangedPictures :=
    .inItem [.map sea] _ isField rfl isPicture (.addNull rfl (by decide))
  exact first.trans second

theorem ObjectModel.constructClass_of_rearranges_pictures : ∃ instanceValue,
    album.constructClass .typed .album Data.pictures = .ok instanceValue ∧
      album.constructClass .typed .album Data.rearrangedPictures = .ok instanceValue := by
  have isOk : (album.constructClass .typed .album Data.pictures).isOk = true := by decide +kernel
  obtain ⟨instanceValue, constructed⟩ := exists_eq_ok_of_isOk isOk
  have distinct : (Data.map Data.pictures).HasDistinctKeys := by
    simp [Data.pictures, Data.HasDistinctKeys, itemsHaveDistinctKeys, entriesHaveDistinctKeys, Table.keys]
  have isAlbum : album.class? "Album" = some .album := rfl
  have both := constructClass_of_rearranges ofDocument_album .typed isAlbum distinct rearranges_pictures
  exact ⟨instanceValue, constructed, (both.1 instanceValue).mp constructed⟩

end ClassSchema
