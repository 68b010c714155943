import ClassSchema.Document.Reader
import ClassSchema.Import.Merge
import ClassSchema.Import.Source

/-! # Resolving imports

The imports of a document are loaded in the order in which they are found, breadth first, and merged into
the document. An import identifier is loaded once, and a schema that comes under several identifiers is
merged once; the document's own schema is not merged into it.

A loader may give ever new schemas, and then the resolution does not end. From a source it ends, because
every merge uses up a schema id among the finitely many texts that the source can give, and everything else
shortens the queue. So what a resolution comes to is a relation for loaders and a function for sources.
-/

namespace ClassSchema

/-- The document of an import. -/
def ImportLoader.document (loader : ImportLoader) (identifier : String) : Except SchemaError Document :=
  match loader identifier with
  | .error fault => .error (.importError identifier fault)
  | .ok none => .error (.importError identifier .notFound)
  | .ok (some text) =>
    match Document.parse text with
    | .error error => .error (.importError identifier (.syntaxError error))
    | .ok document => .ok document

/-- The document with one more import identifier recorded as resolved. -/
def Document.recordImport (document : Document) (identifier : String) : Document :=
  { document with resolvedImports := document.resolvedImports ++ [identifier] }

/-- How far the resolution of a document's imports has come. -/
structure Resolution where
  /-- The document with what is merged into it so far. -/
  merged : Document
  /-- The import identifiers that are not loaded any more. -/
  visited : List String
  /-- The id of the document and those of the schemas that are merged into it. -/
  seenIds : List String
  /-- The import identifiers that are still to be looked at. -/
  queue : List String

namespace Resolution

/-- Where the resolution of a document's imports starts. -/
def start (document : Document) : Resolution :=
  ⟨document, document.resolvedImports, [document.id], document.imports⟩

/-- Take one identifier from the queue; `queue` is what stands behind it. -/
def advance (loader : ImportLoader) (state : Resolution) (identifier : String) (queue : List String) :
    Except SchemaError Resolution :=
  if identifier ∈ state.visited then .ok { state with queue := queue }
  else
    match loader.document identifier with
    | .error error => .error error
    | .ok found =>
      if found.id ∈ state.seenIds then
        .ok ⟨state.merged.recordImport identifier, identifier :: state.visited, state.seenIds, queue⟩
      else
        match (state.merged.recordImport identifier).merge found with
        | .error error => .error error
        | .ok merged =>
          .ok ⟨merged, identifier :: state.visited, found.id :: state.seenIds, queue ++ found.imports⟩

/-- What the resolution comes to from a state on: steps are taken until the queue is empty or one of them
fails. -/
inductive Ends (loader : ImportLoader) : Resolution → Except SchemaError Document → Prop
  | done {state : Resolution} (empty : state.queue = []) : Ends loader state (.ok state.merged)
  | failed {state : Resolution} {identifier : String} {queue : List String} {error : SchemaError}
      (waiting : state.queue = identifier :: queue)
      (failure : state.advance loader identifier queue = .error error) : Ends loader state (.error error)
  | step {state next : Resolution} {identifier : String} {queue : List String}
      {result : Except SchemaError Document} (waiting : state.queue = identifier :: queue)
      (advanced : state.advance loader identifier queue = .ok next) (rest : Ends loader next result) :
      Ends loader state result

end Resolution

/-- Whether resolving the imports of a document, direct or not, comes to a result. -/
def Document.ResolvesImports (document : Document) (loader : ImportLoader)
    (result : Except SchemaError Document) : Prop :=
  Resolution.Ends loader (Resolution.start document) result

/-- What taking one identifier from the queue can come to. -/
inductive Resolution.Advances (loader : ImportLoader) (state : Resolution) (identifier : String)
    (queue : List String) : Resolution → Prop
  | passed (known : identifier ∈ state.visited) :
      Advances loader state identifier queue { state with queue := queue }
  | repeated {found : Document} (isNew : identifier ∉ state.visited)
      (loaded : loader.document identifier = .ok found) (seen : found.id ∈ state.seenIds) :
      Advances loader state identifier queue
        ⟨state.merged.recordImport identifier, identifier :: state.visited, state.seenIds, queue⟩
  | merged {found merged : Document} (isNew : identifier ∉ state.visited)
      (loaded : loader.document identifier = .ok found) (unseen : found.id ∉ state.seenIds)
      (union : (state.merged.recordImport identifier).merge found = .ok merged) :
      Advances loader state identifier queue
        ⟨merged, identifier :: state.visited, found.id :: state.seenIds, queue ++ found.imports⟩

theorem Resolution.advance_eq_ok_iff {loader : ImportLoader} {state next : Resolution}
    {identifier : String} {queue : List String} :
    state.advance loader identifier queue = .ok next ↔ Advances loader state identifier queue next := by
  constructor
  · intro success
    unfold advance at success
    split at success
    · cases success
      exact .passed ‹_›
    · split at success
      · cases success
      · split at success
        · cases success
          exact .repeated ‹_› ‹_› ‹_›
        · split at success <;> cases success
          exact .merged ‹_› ‹_› ‹_› ‹_›
  · intro step
    cases step with
    | passed known => rw [advance, if_pos known]
    | repeated isNew loaded seen => simp only [advance, if_neg isNew, loaded, if_pos seen]
    | merged isNew loaded unseen union =>
      simp only [advance, if_neg isNew, loaded, if_neg unseen, union]

/-- What a text may still contribute to the queue: one more than its imports if its schema is new. -/
def pendingImports (seenIds : List String) (text : String) : Nat :=
  match Document.parse text with
  | .ok document => if document.id ∈ seenIds then 0 else document.imports.length + 1
  | .error _ => 0

/-- The total of what texts count for. -/
def totalOver (count : String → Nat) : List String → Nat
  | [] => 0
  | text :: rest => count text + totalOver count rest

/-- What all texts of a source may still contribute. -/
def ImportSource.pending (source : ImportSource) (seenIds : List String) : Nat :=
  totalOver (pendingImports seenIds) source.texts

theorem pendingImports_cons_le (id : String) (seenIds : List String) (text : String) :
    pendingImports (id :: seenIds) text ≤ pendingImports seenIds text := by
  unfold pendingImports
  split
  · split <;> split <;> simp_all
  · exact Nat.le_refl _

theorem totalOver_le {texts : List String} {f g : String → Nat} (le : ∀ text ∈ texts, f text ≤ g text) :
    totalOver f texts ≤ totalOver g texts := by
  induction texts with
  | nil => exact Nat.le_refl _
  | cons text rest ih =>
    have head := le text List.mem_cons_self
    have tail := ih fun text mem => le text (List.mem_cons_of_mem _ mem)
    simp only [totalOver]
    omega

theorem totalOver_add_le {texts : List String} {f g : String → Nat} {text : String} {count : Nat}
    (mem : text ∈ texts) (le : ∀ text ∈ texts, f text ≤ g text) (gap : f text + count ≤ g text) :
    totalOver f texts + count ≤ totalOver g texts := by
  induction texts with
  | nil => simp at mem
  | cons first rest ih =>
    simp only [totalOver]
    rcases List.mem_cons.mp mem with rfl | mem
    · have tail := totalOver_le fun text mem => le text (List.mem_cons_of_mem _ mem)
      omega
    · have tail := ih mem fun text mem => le text (List.mem_cons_of_mem _ mem)
      have head := le first List.mem_cons_self
      omega

/-- Merging a new schema uses up more of what is pending than it adds to the queue. -/
theorem ImportSource.pending_cons {source : ImportSource} {seenIds : List String} {text : String}
    {document : Document} (mem : text ∈ source.texts) (parsed : Document.parse text = .ok document)
    (isNew : document.id ∉ seenIds) :
    source.pending (document.id :: seenIds) + (document.imports.length + 1) ≤ source.pending seenIds := by
  refine totalOver_add_le mem (fun text _ => pendingImports_cons_le _ _ text) ?_
  simp [pendingImports, parsed, isNew]

/-- The document of an import is read from a text of the loader. -/
theorem ImportLoader.document_eq_ok_iff {loader : ImportLoader} {identifier : String}
    {document : Document} : loader.document identifier = .ok document ↔
      ∃ text, loader identifier = .ok (some text) ∧ Document.parse text = .ok document := by
  unfold ImportLoader.document
  constructor
  · intro success
    split at success
    · cases success
    · cases success
    · split at success <;> cases success
      exact ⟨_, ‹_›, ‹_›⟩
  · rintro ⟨text, loaded, parsed⟩
    simp only [loaded, parsed]

/-- Every step from a source leaves less to do. -/
theorem Resolution.Advances.measure_lt {source : ImportSource} {state next : Resolution}
    {identifier : String} {queue : List String} (step : Advances source.load state identifier queue next) :
    source.pending next.seenIds + next.queue.length <
      source.pending state.seenIds + (identifier :: queue).length := by
  cases step with
  | passed known => simp
  | repeated isNew loaded seen => simp
  | merged isNew loaded unseen union =>
    obtain ⟨text, given, parsed⟩ := ImportLoader.document_eq_ok_iff.mp loaded
    have used := ImportSource.pending_cons (source.mem_texts _ _ given) parsed unseen
    simp only [List.length_append, List.length_cons]
    omega

/-- Take identifiers from the queue until it is empty. -/
def Resolution.run (source : ImportSource) (state : Resolution) : Except SchemaError Document :=
  match _ : state.queue with
  | [] => .ok state.merged
  | identifier :: queue =>
    match _ : state.advance source.load identifier queue with
    | .error error => .error error
    | .ok next => run source next
termination_by source.pending state.seenIds + state.queue.length
decreasing_by
  rename_i waiting advanced
  rw [waiting]
  exact (advance_eq_ok_iff.mp advanced).measure_lt

/-- The document with all its imports from a source, direct or not, merged into it. -/
def Document.resolveImports (document : Document) (source : ImportSource) :
    Except SchemaError Document :=
  (Resolution.start document).run source

/-- From a source the resolution ends. -/
theorem Resolution.ends_run (source : ImportSource) (state : Resolution) :
    Ends source.load state (state.run source) := by
  fun_induction Resolution.run source state with
  | case1 state empty => exact .done empty
  | case2 state identifier queue waiting error failure => exact .failed waiting failure
  | case3 state identifier queue waiting next advanced ih => exact .step waiting advanced ih

/-- A resolution comes to one result at most. -/
theorem Resolution.Ends.unique {loader : ImportLoader} {state : Resolution}
    {result other : Except SchemaError Document} (left : Ends loader state result)
    (right : Ends loader state other) : result = other := by
  induction left with
  | done empty =>
    cases right with
    | done => rfl
    | failed waiting => exact absurd (empty.symm.trans waiting) nofun
    | step waiting => exact absurd (empty.symm.trans waiting) nofun
  | failed waiting failure =>
    cases right with
    | done empty => exact absurd (empty.symm.trans waiting) nofun
    | failed waitingAgain failureAgain =>
      obtain ⟨rfl, rfl⟩ := List.cons.inj (waiting.symm.trans waitingAgain)
      exact congrArg Except.error (Except.error.inj (failure.symm.trans failureAgain))
    | step waitingAgain advanced =>
      obtain ⟨rfl, rfl⟩ := List.cons.inj (waiting.symm.trans waitingAgain)
      exact absurd (failure.symm.trans advanced) nofun
  | step waiting advanced _ ih =>
    cases right with
    | done empty => exact absurd (empty.symm.trans waiting) nofun
    | failed waitingAgain failure =>
      obtain ⟨rfl, rfl⟩ := List.cons.inj (waiting.symm.trans waitingAgain)
      exact absurd (failure.symm.trans advanced) nofun
    | step waitingAgain advancedAgain rest =>
      obtain ⟨rfl, rfl⟩ := List.cons.inj (waiting.symm.trans waitingAgain)
      obtain rfl := Except.ok.inj (advanced.symm.trans advancedAgain)
      exact ih rest

/-- Resolving the imports of a document from a source comes to what is computed. -/
theorem Document.resolvesImports_iff {document : Document} {source : ImportSource}
    {result : Except SchemaError Document} :
    document.ResolvesImports source.load result ↔ document.resolveImports source = result := by
  have computed := Resolution.ends_run source (Resolution.start document)
  constructor
  · intro comes
    exact computed.unique comes
  · rintro rfl
    exact computed

end ClassSchema
