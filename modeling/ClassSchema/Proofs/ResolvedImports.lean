import ClassSchema.Proofs.ResolutionRuns

/-! # Resolved documents

A document is resolved if it has recorded every import that it declares. Whatever was recorded before, and
whatever the imports bring, each resolution ends in such a document. A resolved document needs nothing of a
loader, so resolving it once more gives it back as it is.
-/

namespace ClassSchema

open Resolution

/-- Whether every import that a document declares is recorded as resolved. -/
def Document.IsResolved (document : Document) : Prop :=
  ∀ identifier ∈ document.imports, identifier ∈ document.resolvedImports

/-- What the steps of a resolution keep of the imports that its document declares. Unlike `Tracks` this does
not ask that the document came with no import resolved. -/
structure Resolution.Accounts (document : Document) (state : Resolution) : Prop where
  imports : state.merged.imports = document.imports
  visited : ∀ identifier ∈ state.visited, identifier ∈ state.merged.resolvedImports
  declared : ∀ identifier ∈ document.imports,
    identifier ∈ state.merged.resolvedImports ∨ identifier ∈ state.queue

theorem Document.merge_imports {target source merged : Document}
    (success : target.merge source = .ok merged) : merged.imports = target.imports := by
  obtain ⟨_, _, _, _, _, _, rfl⟩ := Document.merge_eq_ok_iff.mp success
  rfl

namespace Resolution

variable {document : Document} {loader : ImportLoader} {state next : Resolution}

theorem accounts_start (document : Document) : (start document).Accounts document where
  imports := rfl
  visited _ resolved := resolved
  declared _ declares := .inr declares

namespace Accounts

/-- Recording one import settles it and leaves the others as they were. -/
theorem record (accounts : state.Accounts document) {identifier : String} {queue : List String}
    (waiting : state.queue = identifier :: queue) {merged : Document}
    (imports : merged.imports = state.merged.imports)
    (recorded : merged.resolvedImports = state.merged.resolvedImports ++ [identifier])
    (seenIds others : List String) :
    Accounts document ⟨merged, identifier :: state.visited, seenIds, queue ++ others⟩ := by
  constructor
  · exact imports.trans accounts.imports
  · intro other known
    rw [recorded, List.mem_append, List.mem_singleton]
    rcases List.mem_cons.mp known with rfl | known
    · exact .inr rfl
    · exact .inl (accounts.visited other known)
  · intro other declares
    have before := accounts.declared other declares
    rw [waiting, List.mem_cons] at before
    rw [recorded, List.mem_append, List.mem_singleton, List.mem_append]
    rcases before with resolved | rfl | waits
    · exact .inl (.inl resolved)
    · exact .inl (.inr rfl)
    · exact .inr (.inl waits)

/-- Every step keeps account of the declared imports. -/
theorem advances (accounts : state.Accounts document) {identifier : String} {queue : List String}
    (waiting : state.queue = identifier :: queue) (step : Advances loader state identifier queue next) :
    next.Accounts document := by
  cases step with
  | passed known =>
    refine { accounts with declared := ?_ }
    intro other declares
    have before := accounts.declared other declares
    rw [waiting, List.mem_cons] at before
    rcases before with resolved | rfl | waits
    · exact .inl resolved
    · exact .inl (accounts.visited other known)
    · exact .inr waits
  | repeated isNew loaded seen =>
    have recorded : Accounts document
        ⟨state.merged.recordImport identifier, identifier :: state.visited, state.seenIds, queue ++ []⟩ := by
      apply accounts.record waiting
      · rfl
      · rfl
    rwa [List.append_nil] at recorded
  | @merged found merged isNew loaded unseen union =>
    have imports : merged.imports = state.merged.imports := (Document.merge_imports union).trans rfl
    exact accounts.record waiting imports (Document.merge_resolvedImports union) _ _

end Accounts

end Resolution

/-- Resolving records every declared import, whatever was recorded before. -/
theorem Document.isResolved_of_resolvesImports {document result : Document} {loader : ImportLoader}
    (success : document.ResolvesImports loader (.ok result)) : result.IsResolved := by
  obtain ⟨last, accounts, empty, rfl⟩ := success.keeps (fun state => state.Accounts document)
    (fun waiting step before => before.advances waiting step) (accounts_start document)
  intro identifier declares
  rw [accounts.imports] at declares
  have settled := accounts.declared identifier declares
  rw [empty] at settled
  exact settled.resolve_right List.not_mem_nil

/-- A queue of known identifiers is passed without asking the loader. -/
theorem Resolution.ends_of_queue_visited (loader : ImportLoader) {state : Resolution}
    (known : ∀ identifier ∈ state.queue, identifier ∈ state.visited) :
    Ends loader state (.ok state.merged) := by
  obtain ⟨merged, visited, seenIds, queue⟩ := state
  induction queue with
  | nil => exact .done rfl
  | cons identifier queue ih =>
    have passes : Advances loader ⟨merged, visited, seenIds, identifier :: queue⟩ identifier queue
        ⟨merged, visited, seenIds, queue⟩ :=
      .passed (known identifier List.mem_cons_self)
    apply Ends.step rfl (advance_eq_ok_iff.mpr passes)
    apply ih
    intro other waits
    exact known other (List.mem_cons_of_mem _ waits)

/-- A resolved document is all that resolving it can come to, from any loader. -/
theorem Document.IsResolved.resolvesImports_iff {document : Document} (resolved : document.IsResolved)
    {loader : ImportLoader} {outcome : Except SchemaError Document} :
    document.ResolvesImports loader outcome ↔ outcome = .ok document := by
  have known : ∀ identifier ∈ (start document).queue, identifier ∈ (start document).visited := resolved
  have stays : document.ResolvesImports loader (.ok document) := ends_of_queue_visited loader known
  constructor
  · intro comes
    exact comes.unique stays
  · rintro rfl
    exact stays

/-- Resolving again changes nothing, whatever the second loader does: it comes to the resolved document, and
to nothing else. -/
theorem Document.resolvesImports_resolved_iff {document result : Document} {loader : ImportLoader}
    (success : document.ResolvesImports loader (.ok result)) (other : ImportLoader)
    (outcome : Except SchemaError Document) :
    result.ResolvesImports other outcome ↔ outcome = .ok result :=
  (isResolved_of_resolvesImports success).resolvesImports_iff

/-- A document that came with one import resolved and declares another one twice. -/
def Document.looping : Document :=
  { blank with
    id := "root"
    name := "root"
    imports := ["shapes", "kept", "shapes"]
    resolvedImports := ["kept"] }

/-- An import that imports itself and the document's own schema, which in turn imports what is nowhere. -/
def ImportSource.looping : ImportSource :=
  .ofTable
    [("shapes", "{id: shapes, name: shapes, imports: [shapes, root], classes: {Shape: }}"),
     ("root", "{id: root, name: root, imports: [nowhere]}")]

/-- The document with the import merged in. -/
def Document.loopingResolved : Document :=
  { looping with
    resolvedImports := ["kept", "shapes", "root"]
    classes := [("Shape", ⟨"Shape", none, none, none, []⟩)] }

theorem Document.resolvesImports_resolved_iff_looping :
    looping.ResolvesImports ImportSource.looping.load (.ok loopingResolved) ∧
      ∀ outcome, loopingResolved.ResolvesImports
        (fun identifier => .error (.unreadableFile identifier "gone")) outcome ↔
          outcome = .ok loopingResolved := by
  have ends : Resolution.runWithin ImportSource.looping.load 6 (Resolution.start looping) =
      some (.ok loopingResolved) := by
    decide +kernel
  have success := Resolution.ends_of_runWithin ends
  exact ⟨success, resolvesImports_resolved_iff success _⟩

end ClassSchema
