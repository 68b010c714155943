import ClassSchema.Proofs.Outcomes
import ClassSchema.Proofs.TypedInstances

/-! # Coercion modes

The typed mode refuses texts that the lenient mode takes as numbers and truth values, and agrees with it on
everything else. Both go over the data in the same way. So what is constructed in the typed mode is constructed
in the lenient one too, and otherwise the lenient mode finds fault only where the typed one does.
-/

namespace ClassSchema

/-- A scalar of the typed mode is the same one in the lenient mode. -/
theorem coerceScalar_lenient {kind : ScalarKind} {data : Data} {value : Value}
    (typed : coerceScalar .typed kind data = .ok value) : coerceScalar .lenient kind data = .ok value := by
  -- the typed mode takes numbers and truth values from literals only, which the lenient mode reads alike
  cases kind with
  | integer =>
    cases data with
    | number literal => exact typed
    | _ => cases typed
  | decimal =>
    cases data with
    | number literal => exact typed
    | _ => cases typed
  | boolean =>
    cases data with
    | bool truth => exact typed
    | _ => cases typed
  | _ => exact typed

/-- A scalar is at fault in the lenient mode only if it is in the typed one. -/
theorem Outcome.scalar_follows (kind : ScalarKind) (path : String) (data : Data) :
    Follows List.Sublist (scalar .lenient kind path data) (scalar .typed kind path data) := by
  unfold scalar
  cases typed : coerceScalar .typed kind data with
  | ok value =>
    rw [coerceScalar_lenient typed]
    exact .refl comparesPaths_sublist _
  | error reason =>
    cases coerceScalar .lenient kind data with
    | ok value => exact ⟨List.nil_sublist _, nofun⟩
    | error other => exact .fault comparesPaths_sublist rfl

namespace ObjectModel

variable (model : ObjectModel)

theorem constructSingle_follows_of_noMap {data : Data} (noMap : ∀ entries, data ≠ .map entries) (range : Range)
    (path : String) : Outcome.Follows List.Sublist (constructSingle model .lenient range path data)
      (constructSingle model .typed range path data) := by
  rw [constructSingle_of_noMap model _ noMap, constructSingle_of_noMap model _ noMap]
  cases range with
  | scalar kind => exact Outcome.scalar_follows kind path data
  | instanceOf className => exact .refl comparesPaths_sublist _

/-- What the modes do with the data of any field they do with a single value of any range. -/
theorem constructSingle_follows {data : Data} (value : ∀ field path, Outcome.Follows List.Sublist
      (constructValue model .lenient field path data) (constructValue model .typed field path data))
    (range : Range) (path : String) : Outcome.Follows List.Sublist (constructSingle model .lenient range path data)
      (constructSingle model .typed range path data) := by
  by_cases given : data = .null
  · subst given
    exact constructSingle_follows_of_noMap model (by simp) range path
  · have same := value (itemField range) path
    rwa [constructValue_of_single model _ path rfl given, constructValue_of_single model _ path rfl given] at same

theorem constructValue_follows (data : Data) : ∀ field path, Outcome.Follows List.Sublist
    (constructValue model .lenient field path data) (constructValue model .typed field path data) := by
  induction data using Data.inductionOn with
  | leaf data noList noMap =>
    intro field path
    cases data with
    | null => exact .refl comparesPaths_sublist _
    | list items => exact absurd rfl (noList items)
    | map entries => exact absurd rfl (noMap entries)
    | _ =>
      simp only [constructValue]
      split
      · exact .refl comparesPaths_sublist _
      · exact constructSingle_follows_of_noMap model (by simp) field.range path
  | list items ih =>
    intro field path
    apply follows_constructValue_list comparesPaths_sublist
    rw [List.forall₂_same]
    intro item member path
    exact constructSingle_follows model (ih item member) field.range path
  | map entries ih =>
    intro field path
    apply follows_constructValue_map comparesPaths_sublist
    intro className classModel _ _
    apply follows_constructEntries comparesPaths_sublist (List.Sublist.refl _)
    intro inner _
    rw [constructField_eq, constructField_eq]
    cases read : Table.get? entries inner.name with
    | none => exact .refl comparesPaths_sublist _
    | some data => exact ih _ (Table.mem_of_get? read) inner _

/-- What is constructed in the typed mode is constructed in the lenient mode, and the lenient mode reports faults
only at paths, and in the order, that the typed one does. -/
theorem constructClass_lenient_of_typed (classModel : ClassModel) (entries : Table Data) :
    (∀ instanceValue, constructClass model .typed classModel entries = .ok instanceValue →
      constructClass model .lenient classModel entries = .ok instanceValue) ∧
    List.Sublist ((reported (constructClass model .lenient classModel entries)).map CoercionError.path)
      ((reported (constructClass model .typed classModel entries)).map CoercionError.path) := by
  refine (follows_constructClass comparesPaths_sublist ?_).symm
  apply follows_constructEntries comparesPaths_sublist (List.Sublist.refl _)
  intro field _
  rw [constructField_eq, constructField_eq]
  cases entries.get? field.name with
  | none => exact .refl comparesPaths_sublist _
  | some data => exact constructValue_follows model data field _

theorem constructClass_lenient_of_typed_album : ∃ instanceValue,
    album.constructClass .typed .album Data.pictures = .ok instanceValue ∧
      album.constructClass .lenient .album Data.pictures = .ok instanceValue := by
  have isOk : (album.constructClass .typed .album Data.pictures).isOk = true := by decide +kernel
  obtain ⟨instanceValue, typed⟩ := exists_eq_ok_of_isOk isOk
  exact ⟨instanceValue, typed, (constructClass_lenient_of_typed album .album Data.pictures).1 instanceValue typed⟩

end ObjectModel

end ClassSchema
