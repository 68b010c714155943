import Mathlib.Data.List.Forall2
import ClassSchema.Instance.Model

/-! # Tables without repeated names

In a table whose names are distinct, what is read under a name is exactly what is stored with it, and
storing its entries one after the other gives the table itself. The same holds of the fields of a class.
-/

namespace ClassSchema

/-- Every counterpart of a list belongs to an item of it. -/
theorem exists_of_mem_forall₂ {α β : Type} {relates : α → β → Prop} {items : List α} {results : List β}
    (each : List.Forall₂ relates items results) {result : β} (member : result ∈ results) :
    ∃ item ∈ items, relates item result := by
  induction each with
  | nil => cases member
  | cons first _ ih =>
    rcases List.mem_cons.mp member with rfl | later
    · exact ⟨_, List.mem_cons_self, first⟩
    · obtain ⟨item, isItem, related⟩ := ih later
      exact ⟨item, List.mem_cons_of_mem _ isItem, related⟩

/-- What related items have in common is the same along the lists. -/
theorem map_eq_map_of_forall₂ {α β γ : Type} {relates : α → β → Prop} {left : α → γ} {right : β → γ}
    (same : ∀ item result, relates item result → left item = right result) {items : List α}
    {results : List β} (each : List.Forall₂ relates items results) : items.map left = results.map right := by
  induction each with
  | nil => rfl
  | cons first _ ih => rw [List.map_cons, List.map_cons, same _ _ first, ih]

namespace Table

variable {α : Type}

theorem mem_of_get? {table : Table α} {name : String} {value : α}
    (found : table.get? name = some value) : (name, value) ∈ table := by
  induction table with
  | nil => cases found
  | cons entry rest ih =>
    obtain ⟨key, first⟩ := entry
    rw [get?_cons] at found
    split at found
    · rename_i same
      cases found
      rw [same]
      exact List.mem_cons_self
    · exact List.mem_cons_of_mem _ (ih found)

theorem get?_eq_none_iff (table : Table α) (name : String) :
    table.get? name = none ↔ name ∉ table.keys := by
  rw [← has_iff_mem_keys, has]
  cases table.get? name <;> simp

/-- Where names are distinct, an entry is what is read under its name. -/
theorem get?_eq_some_iff_mem {table : Table α} (distinct : table.keys.Nodup) {name : String}
    {value : α} : table.get? name = some value ↔ (name, value) ∈ table := by
  refine ⟨mem_of_get?, ?_⟩
  intro member
  induction table with
  | nil => cases member
  | cons entry rest ih =>
    obtain ⟨key, first⟩ := entry
    obtain ⟨fresh, distinct⟩ := List.nodup_cons.mp distinct
    rw [get?_cons]
    rcases List.mem_cons.mp member with same | later
    · cases same
      exact if_pos rfl
    · rw [if_neg, ih distinct later]
      rintro rfl
      exact fresh (List.mem_map.mpr ⟨_, later, rfl⟩)

/-- What is found in a table does not depend on the order of its entries. -/
theorem get?_of_perm {left right : Table α} (perm : List.Perm left right) (distinct : left.keys.Nodup)
    (name : String) : left.get? name = right.get? name := by
  have others : right.keys.Nodup := (perm.map Prod.fst).nodup_iff.mp distinct
  apply Option.ext
  intro value
  rw [get?_eq_some_iff_mem distinct, get?_eq_some_iff_mem others, perm.mem_iff]

/-- What is found in a table whose values were all mapped. -/
theorem get?_map {β : Type} (f : α → β) (table : Table α) (name : String) :
    get? (table.map fun entry => (entry.1, f entry.2)) name = (table.get? name).map f := by
  induction table with
  | nil => rfl
  | cons entry rest ih =>
    obtain ⟨key, value⟩ := entry
    rw [List.map_cons, get?_cons, get?_cons, ih]
    split <;> rfl

/-- Leaving out what is stored under one name changes no other name. -/
theorem get?_filter_ne {key name : String} (differ : name ≠ key) (table : Table α) :
    get? (table.filter fun entry => entry.1 ≠ key) name = table.get? name := by
  induction table with
  | nil => rfl
  | cons entry rest ih =>
    obtain ⟨first, value⟩ := entry
    rw [List.filter_cons, get?_cons]
    by_cases isKey : first = key
    · subst isKey
      rw [if_neg (Ne.symm differ), ← ih]
      simp
    · simp only [ne_eq, isKey, not_false_eq_true, decide_true, if_true, get?_cons, ih]

theorem get?_eq_lookup (table : Table α) (name : String) : table.get? name = table.lookup name := by
  induction table with
  | nil => rfl
  | cons entry rest ih =>
    obtain ⟨key, value⟩ := entry
    rw [get?_cons, List.lookup_cons, ih]
    by_cases same : key = name
    · simp [same]
    · simp [same, beq_eq_false_iff_ne.mpr (Ne.symm same)]

/-- Storing under a new name adds an entry at the end. -/
theorem set_of_not_mem {table : Table α} {name : String} (isNew : name ∉ table.keys) (value : α) :
    table.set name value = table ++ [(name, value)] := by
  induction table with
  | nil => rfl
  | cons entry rest ih =>
    obtain ⟨key, first⟩ := entry
    simp only [keys, List.map_cons, List.mem_cons, not_or] at isNew
    rw [set, if_neg (Ne.symm isNew.1), ih isNew.2, List.cons_append]

theorem nodup_keys_set {table : Table α} (distinct : table.keys.Nodup) (name : String) (value : α) :
    (table.set name value).keys.Nodup := by
  rw [keys_set]
  split
  · exact distinct
  · rename_i isNew
    rw [has_iff_mem_keys] at isNew
    rw [List.nodup_append]
    refine ⟨distinct, by simp, ?_⟩
    rintro known present other isName rfl
    rw [List.mem_singleton.mp isName] at present
    exact isNew present

/-- Entries with distinct names are stored as they are. -/
theorem ofPairs_of_nodup {pairs : List (String × α)} (distinct : (keys pairs).Nodup) :
    ofPairs pairs = pairs := by
  have stored (rest : List (String × α)) : ∀ table : Table α, (keys (table ++ rest)).Nodup →
      rest.foldl (fun table pair => set table pair.1 pair.2) table = table ++ rest := by
    induction rest with
    | nil => exact fun table _ => (List.append_nil table).symm
    | cons pair rest ih =>
      intro table distinct
      have isNew : pair.1 ∉ table.keys := by
        simp only [keys, List.map_append, List.map_cons, List.nodup_append] at distinct
        exact fun present => distinct.2.2 _ present _ List.mem_cons_self rfl
      rw [List.foldl_cons, set_of_not_mem isNew, ih]
      · simp
      · simpa using distinct
  exact stored pairs [] distinct

end Table

/-- Where field names are distinct, a field is what is found under its name. -/
theorem ClassModel.field?_eq_some_iff {model : ClassModel}
    (distinct : (model.fields.map Field.name).Nodup) {name : String} {field : Field} :
    model.field? name = some field ↔ field ∈ model.fields ∧ field.name = name := by
  unfold ClassModel.field?
  generalize model.fields = fields at distinct
  induction fields with
  | nil => simp
  | cons first rest ih =>
    obtain ⟨fresh, distinct⟩ := List.nodup_cons.mp distinct
    rw [List.find?_cons, List.mem_cons]
    by_cases same : first.name = name
    · simp only [same, decide_true]
      constructor
      · intro found
        cases found
        exact ⟨.inl rfl, same⟩
      · rintro ⟨rfl | later, named⟩
        · rfl
        · rw [same, ← named] at fresh
          exact absurd (List.mem_map_of_mem later) fresh
    · simp only [same, decide_false, ih distinct]
      constructor
      · rintro ⟨later, named⟩
        exact ⟨.inr later, named⟩
      · rintro ⟨rfl | later, named⟩
        · exact absurd named same
        · exact ⟨later, named⟩

end ClassSchema
