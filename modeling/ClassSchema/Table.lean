/-! # Tables in insertion order

A table maps names to values and remembers the order in which the names were first given. Setting a
name that is present replaces its value in place.
-/

namespace ClassSchema

/-- Pairs of a name and a value, in insertion order. -/
abbrev Table (α : Type) := List (String × α)

namespace Table

variable {α β : Type}

/-- The value stored under a name. -/
def get? (table : Table α) (name : String) : Option α :=
  match table with
  | [] => none
  | (key, value) :: rest => if key = name then some value else get? rest name

/-- Whether a value is stored under a name. -/
def has (table : Table α) (name : String) : Bool :=
  (table.get? name).isSome

/-- The names, in order. -/
def keys (table : Table α) : List String :=
  table.map Prod.fst

/-- The values, in order. -/
def values (table : Table α) : List α :=
  table.map Prod.snd

/-- Store a value under a name, in place when the name is present and at the end otherwise. -/
def set (table : Table α) (name : String) (value : α) : Table α :=
  match table with
  | [] => [(name, value)]
  | (key, old) :: rest => if key = name then (key, value) :: rest else (key, old) :: set rest name value

/-- The table that results from storing pairs one after the other. -/
def ofPairs (pairs : List (String × α)) : Table α :=
  pairs.foldl (fun table pair => set table pair.1 pair.2) []

@[simp] theorem get?_nil (name : String) : get? ([] : Table α) name = none := rfl

theorem get?_cons (key : String) (value : α) (rest : Table α) (name : String) :
    get? ((key, value) :: rest) name = if key = name then some value else get? rest name := rfl

/-- A stored value is read back, and storing it changes no other name. -/
theorem get?_set (table : Table α) (name other : String) (value : α) :
    (table.set name value).get? other = if name = other then some value else table.get? other := by
  induction table with
  | nil => simp [set, get?_cons]
  | cons pair rest ih =>
    obtain ⟨key, old⟩ := pair
    by_cases atKey : key = name
    · subst atKey
      by_cases same : key = other <;> simp [set, get?_cons, same]
    · by_cases same : key = other
      · subst same
        simp [set, get?_cons, atKey, Ne.symm atKey]
      · simp [set, get?_cons, atKey, same, ih]

/-- A name is present exactly when it is among the keys. -/
theorem has_iff_mem_keys (table : Table α) (name : String) :
    table.has name = true ↔ name ∈ table.keys := by
  induction table with
  | nil => simp [has, keys]
  | cons pair rest ih =>
    obtain ⟨key, value⟩ := pair
    simp only [has, keys, get?_cons, List.map_cons, List.mem_cons] at ih ⊢
    by_cases atKey : key = name
    · simp [atKey]
    · simp [atKey, Ne.symm atKey, ih]

/-- What is read from a table is among its values. -/
theorem mem_values_of_get? {table : Table α} {name : String} {value : α}
    (found : table.get? name = some value) : value ∈ table.values := by
  induction table with
  | nil => simp at found
  | cons pair rest ih =>
    obtain ⟨key, first⟩ := pair
    rw [get?_cons] at found
    split at found
    · cases found
      simp [values]
    · exact List.mem_cons_of_mem _ (ih found)

/-- Storing under a present name keeps the keys; storing under a new name adds it at the end. -/
theorem keys_set (table : Table α) (name : String) (value : α) :
    (table.set name value).keys = if table.has name then table.keys else table.keys ++ [name] := by
  induction table with
  | nil => simp [set, keys, has]
  | cons pair rest ih =>
    obtain ⟨key, old⟩ := pair
    by_cases atKey : key = name
    · simp [set, keys, has, get?_cons, atKey]
    · simp only [set, keys, has, get?_cons, atKey, if_false, List.map_cons] at ih ⊢
      by_cases present : (get? rest name).isSome = true <;> simp_all

end Table

end ClassSchema
