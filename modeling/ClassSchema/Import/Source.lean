import ClassSchema.Document.Namespace
import ClassSchema.Error
import ClassSchema.Table

/-! # Sources of imports

A loader gives the text for an import identifier, or says that it has none, or fails. A source is a loader
whose texts are among finitely many, so from a source a document cannot import forever.
-/

namespace ClassSchema

/-- What gives the text for an import identifier, if it has one. -/
abbrev ImportLoader := String → Except ImportFault (Option String)

/-- Where the texts of imports come from. -/
structure ImportSource where
  /-- The text for an import identifier, if this source has one. -/
  load : ImportLoader
  /-- All texts that the source may give. -/
  texts : List String
  mem_texts : ∀ identifier text, load identifier = .ok (some text) → text ∈ texts

namespace ImportSource

/-- The source that has nothing. -/
def empty : ImportSource where
  load _ := .ok none
  texts := []
  mem_texts := by simp

/-- The source that holds the texts of a table by import identifier. -/
def ofTable (table : Table String) : ImportSource where
  load identifier := .ok (table.get? identifier)
  texts := table.values
  mem_texts := by
    intro identifier text loaded
    exact Table.mem_values_of_get? (Except.ok.inj loaded)

/-- The source that asks the second source for what the first one does not have. -/
def orElse (first second : ImportSource) : ImportSource where
  load identifier :=
    match first.load identifier with
    | .ok none => second.load identifier
    | result => result
  texts := first.texts ++ second.texts
  mem_texts := by
    intro identifier text loaded
    split at loaded
    · exact List.mem_append_right _ (second.mem_texts _ _ loaded)
    · exact List.mem_append_left _ (first.mem_texts _ _ loaded)

end ImportSource

end ClassSchema
