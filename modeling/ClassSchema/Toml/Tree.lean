import ClassSchema.Data
import ClassSchema.Table

/-! # Tables of TOML under construction

A document builds its tables statement by statement. A table that a header names may be named once; tables
on the way to it come into being by themselves. A dotted key may go on with tables that dotted keys have
made, and with no others. A value is never added to.
-/

namespace ClassSchema.Toml

/-- How a table came into being. -/
inductive TableOrigin where
  /-- It stands on the way to a table that a header names. -/
  | implied
  | dotted
  | header
deriving DecidableEq, Repr

/-- What stands under a key. -/
inductive Item where
  | value (data : Data)
  | table (origin : TableOrigin) (entries : List (String × Item))
  /-- An array of tables, the last one first. -/
  | tables (last : List (String × Item)) (others : List (List (String × Item)))
deriving Inhabited

/-- The entries of a table. -/
abbrev Entries := Table Item

namespace Item

mutual

/-- An item as data. -/
def toData : Item → Data
  | .value data => data
  | .table _ entries => .map (entriesData entries)
  | .tables last others => .list ((.map (entriesData last) :: tablesData others).reverse)

/-- Entries as data. -/
def entriesData : List (String × Item) → List (String × Data)
  | [] => []
  | (name, item) :: rest => (name, item.toData) :: entriesData rest

/-- Tables as data. -/
def tablesData : List (List (String × Item)) → List Data
  | [] => []
  | entries :: rest => .map (entriesData entries) :: tablesData rest

end

end Item

namespace Entries

/-- Edit the table that headers name by a path; tables on the way come into being, and of an array of tables
the last one is meant. -/
def within (edit : Entries → Option Entries) : List String → Entries → Option Entries
  | [], entries => edit entries
  | name :: path, entries =>
    match entries.get? name with
    | none => (within edit path []).map fun inner => entries.set name (.table .implied inner)
    | some (.table origin inner) => (within edit path inner).map fun inner => entries.set name (.table origin inner)
    | some (.tables last others) => (within edit path last).map fun last => entries.set name (.tables last others)
    | some (.value _) => none

/-- Name a table by a header. -/
def openTable (name : String) (entries : Entries) : Option Entries :=
  match entries.get? name with
  | none => some (entries.set name (.table .header []))
  | some (.table .implied inner) => some (entries.set name (.table .header inner))
  | some _ => none

/-- Name the next table of an array by a header. -/
def openElement (name : String) (entries : Entries) : Option Entries :=
  match entries.get? name with
  | none => some (entries.set name (.tables [] []))
  | some (.tables last others) => some (entries.set name (.tables [] (last :: others)))
  | some _ => none

/-- Give a value to a key, which must be new. -/
def assign (name : String) (data : Data) (entries : Entries) : Option Entries :=
  if entries.has name then none else some (entries.set name (.value data))

/-- Give a value to a dotted key: the path of tables, and the key in the last one. -/
def assignDotted (data : Data) (key : String) : List String → Entries → Option Entries
  | [], entries => entries.assign key data
  | name :: path, entries =>
    match entries.get? name with
    | none => (assignDotted data key path []).map fun inner => entries.set name (.table .dotted inner)
    | some (.table .dotted inner) =>
      (assignDotted data key path inner).map fun inner => entries.set name (.table .dotted inner)
    | some (.table .implied inner) =>
      if path.isEmpty then none
      else (assignDotted data key path inner).map fun inner => entries.set name (.table .implied inner)
    | some (.tables last others) =>
      if path.isEmpty then none
      else (assignDotted data key path last).map fun last => entries.set name (.tables last others)
    | some (.table .header _) | some (.value _) => none

end Entries

end ClassSchema.Toml
