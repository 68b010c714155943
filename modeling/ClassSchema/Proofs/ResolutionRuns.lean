import ClassSchema.Import.Resolution
import ClassSchema.Proofs.Covering
import ClassSchema.Reachability

/-! # Runs of the resolution

What every step of the resolution keeps holds at its end. So the imports that are recorded are the ones
that were loaded, and each of them is either the first to bring its schema, which then is merged in, or
brings a schema whose id was seen before. The merged document says all that the document and the
contributed schemas say, and nothing else.
-/

namespace ClassSchema

open Resolution

/-- What every step keeps holds where the queue is empty. -/
theorem Resolution.Ends.keeps {loader : ImportLoader} (invariant : Resolution → Prop)
    (keeps : ∀ {state identifier queue next}, state.queue = identifier :: queue →
      Advances loader state identifier queue next → invariant state → invariant next)
    {state : Resolution} {result : Document} (success : Ends loader state (.ok result))
    (start : invariant state) : ∃ last, invariant last ∧ last.queue = [] ∧ last.merged = result := by
  generalize isOk : Except.ok result = outcome at success
  induction success with
  | done empty =>
    cases isOk
    exact ⟨_, start, empty, rfl⟩
  | failed => cases isOk
  | step waiting advanced _ ih =>
    exact ih (keeps waiting (advance_eq_ok_iff.mp advanced) start) isOk

theorem ImportLoader.isNamed {loader : ImportLoader} {identifier : String} {found : Document}
    (loaded : loader.document identifier = .ok found) : found.IsNamed := by
  obtain ⟨text, _, parsed⟩ := ImportLoader.document_eq_ok_iff.mp loaded
  exact (Document.isNamed_of_parse parsed).2

/-- The merged document changes only where an import is recorded or a schema that was read is merged in. -/
theorem Resolution.Ends.merged_keeps {loader : ImportLoader} (invariant : Document → Prop)
    (records : ∀ {document : Document} (identifier : String),
      invariant document → invariant (document.recordImport identifier))
    (merges : ∀ {target source merged : Document} {text : String}, Document.parse text = .ok source →
      target.merge source = .ok merged → invariant target → invariant merged)
    {state : Resolution} {result : Document} (success : Ends loader state (.ok result))
    (start : invariant state.merged) : invariant result := by
  obtain ⟨last, kept, _, rfl⟩ := success.keeps (fun state => invariant state.merged)
    (by
      intro state identifier queue next _ step before
      cases step with
      | passed => exact before
      | repeated => exact records identifier before
      | merged _ loaded _ union =>
        obtain ⟨text, _, parsed⟩ := ImportLoader.document_eq_ok_iff.mp loaded
        exact merges parsed union (records identifier before))
    start
  exact kept

/-- Take at most so many identifiers from the queue; `none` if that is not enough. -/
def Resolution.runWithin (loader : ImportLoader) : Nat → Resolution → Option (Except SchemaError Document)
  | 0, _ => none
  | steps + 1, state =>
    match state.queue with
    | [] => some (.ok state.merged)
    | identifier :: queue =>
      match state.advance loader identifier queue with
      | .error error => some (.error error)
      | .ok next => runWithin loader steps next

/-- What a bounded run comes to is what the resolution comes to. -/
theorem Resolution.ends_of_runWithin {loader : ImportLoader} {steps : Nat} {state : Resolution}
    {result : Except SchemaError Document} (ends : runWithin loader steps state = some result) :
    Ends loader state result := by
  induction steps generalizing state with
  | zero => cases ends
  | succ steps ih =>
    unfold runWithin at ends
    split at ends
    · cases ends
      exact .done ‹_›
    · split at ends
      · cases ends
        exact .failed ‹_› ‹_›
      · exact .step ‹_› ‹_› (ih ends)

theorem Document.merge_resolvedImports {target source merged : Document}
    (success : target.merge source = .ok merged) : merged.resolvedImports = target.resolvedImports := by
  obtain ⟨_, _, _, _, _, _, rfl⟩ := Document.merge_eq_ok_iff.mp success
  rfl

/-- Whether a document has another one's header and adds to its tables at their ends only. -/
structure Document.Extends (whole part : Document) : Prop where
  id : whole.id = part.id
  name : whole.name = part.name
  description? : whole.description? = part.description?
  defaultPrefix? : whole.defaultPrefix? = part.defaultPrefix?
  defaultRange? : whole.defaultRange? = part.defaultRange?
  imports : whole.imports = part.imports
  prefixes : part.prefixes.keys <+: whole.prefixes.keys
  types : part.types.keys <+: whole.types.keys
  classes : part.classes.keys <+: whole.classes.keys

theorem Document.Extends.refl (document : Document) : document.Extends document :=
  ⟨rfl, rfl, rfl, rfl, rfl, rfl, List.prefix_rfl, List.prefix_rfl, List.prefix_rfl⟩

theorem Document.Extends.recordImport {whole part : Document} (before : whole.Extends part)
    (identifier : String) : (whole.recordImport identifier).Extends part :=
  { before with }

theorem Document.Extends.merge {document target source merged : Document} (before : target.Extends document)
    (success : target.merge source = .ok merged) : merged.Extends document := by
  obtain ⟨_, prefixes, _, types, _, classes, rfl⟩ := Document.merge_eq_ok_iff.mp success
  exact { before with
    prefixes := before.prefixes.trans (keys_prefix_mergeTable prefixes)
    types := before.types.trans (keys_prefix_mergeTable types)
    classes := before.classes.trans (keys_prefix_mergeTable classes) }

/-- The resolved document extends the one that was given. -/
theorem Document.extends_of_resolvesImports {document result : Document} {loader : ImportLoader}
    (success : document.ResolvesImports loader (.ok result)) : result.Extends document :=
  success.merged_keeps (fun merged => merged.Extends document)
    (fun identifier before => before.recordImport identifier)
    (fun _ union before => before.merge union)
    (Extends.refl document)

theorem Document.Covers.recordImport {whole part : Document} (before : whole.Covers part)
    (identifier : String) : (whole.recordImport identifier).Covers part :=
  { before with }

/-- The resolved document covers the one that was given. -/
theorem Document.covers_of_resolvesImports {document result : Document} {loader : ImportLoader}
    (success : document.ResolvesImports loader (.ok result)) : result.Covers document :=
  success.merged_keeps (fun merged => merged.Covers document)
    (fun identifier before => before.recordImport identifier)
    (fun parsed union before =>
      ((takesIn_mergeDocument (isNamed_of_parse parsed).2).keeps union).trans before)
    (Covers.refl document)

theorem Document.IsNamed.recordImport {document : Document} (named : document.IsNamed)
    (identifier : String) : (document.recordImport identifier).IsNamed :=
  { named with }

/-- Names stay proper. -/
theorem Document.IsNamed.resolvesImports {document result : Document} (named : document.IsNamed)
    {loader : ImportLoader} (success : document.ResolvesImports loader (.ok result)) :
    result.IsNamed :=
  success.merged_keeps Document.IsNamed
    (fun identifier before => before.recordImport identifier)
    (fun parsed union before => before.merge (isNamed_of_parse parsed).2 union)
    named

/-- Whether an identifier is the first in a list to bring a schema with its id, and that is not the id of
the document itself. -/
structure Document.Contributes (document : Document) (loader : ImportLoader) (identifiers : List String)
    (identifier : String) (found : Document) : Prop where
  loaded : loader.document identifier = .ok found
  foreign : found.id ≠ document.id
  first : ∃ before after, identifiers = before ++ identifier :: after ∧
    ∀ earlier ∈ before, ∀ other, loader.document earlier = .ok other → other.id ≠ found.id

/-- The identifiers that a document imports: those it declares, and those declared by the schemas that come
with them, apart from schemas with its own id. -/
inductive Document.Imports (document : Document) (loader : ImportLoader) : String → Prop
  | declared {identifier : String} (declares : identifier ∈ document.imports) : Imports document loader identifier
  | through {identifier other : String} {found : Document} (reached : Imports document loader identifier)
      (loaded : loader.document identifier = .ok found) (foreign : found.id ≠ document.id)
      (declares : other ∈ found.imports) : Imports document loader other

namespace Document.Contributes

variable {document : Document} {loader : ImportLoader} {identifiers : List String} {identifier : String}
  {found : Document}

theorem mem (contributes : document.Contributes loader identifiers identifier found) :
    identifier ∈ identifiers := by
  obtain ⟨before, after, rfl, _⟩ := contributes.first
  simp

/-- One more identifier at the end contributes if it brings a new id; the others contribute what they did. -/
theorem append_iff {new : String} :
    document.Contributes loader (identifiers ++ [new]) identifier found ↔
      document.Contributes loader identifiers identifier found ∨
        identifier = new ∧ loader.document new = .ok found ∧ found.id ≠ document.id ∧
          ∀ earlier ∈ identifiers, ∀ other, loader.document earlier = .ok other → other.id ≠ found.id := by
  constructor
  · rintro ⟨loaded, foreign, before, after, split, isFirst⟩
    rcases List.eq_nil_or_concat after with rfl | ⟨after, last, rfl⟩
    · obtain ⟨rfl, same⟩ := List.append_inj' split rfl
      obtain rfl := (List.cons.inj same).1
      exact .inr ⟨rfl, loaded, foreign, isFirst⟩
    · have split : identifiers ++ [new] = (before ++ identifier :: after) ++ [last] := by
        rw [split]
        simp
      obtain ⟨rfl, _⟩ := List.append_inj' split rfl
      exact .inl ⟨loaded, foreign, before, after, rfl, isFirst⟩
  · rintro (⟨loaded, foreign, before, after, rfl, isFirst⟩ | ⟨rfl, loaded, foreign, isFirst⟩)
    · exact ⟨loaded, foreign, before, after ++ [new], by simp, isFirst⟩
    · exact ⟨loaded, foreign, identifiers, [], rfl, isFirst⟩

/-- Whatever id an identifier brings, another one that contributes it comes no later. -/
theorem exists_of_mem (member : identifier ∈ identifiers) (loaded : loader.document identifier = .ok found)
    (foreign : found.id ≠ document.id) :
    ∃ first contributed, document.Contributes loader identifiers first contributed ∧
      contributed.id = found.id := by
  classical
  -- The first identifier that brings this id at all is the one that contributes it.
  have present : (identifiers.find? fun other =>
      ∃ brought, loader.document other = .ok brought ∧ brought.id = found.id).isSome = true := by
    rw [List.find?_isSome]
    exact ⟨identifier, member, decide_eq_true ⟨found, loaded, rfl⟩⟩
  obtain ⟨first, isFirst⟩ := Option.isSome_iff_exists.mp present
  obtain ⟨brings, before, after, split, none⟩ := List.find?_eq_some_iff_append.mp isFirst
  obtain ⟨brought, loadedFirst, same⟩ := of_decide_eq_true brings
  refine ⟨first, brought, ⟨loadedFirst, same ▸ foreign, before, after, split, ?_⟩, same⟩
  intro earlier isBefore other loadedEarlier sameAgain
  have differs := none earlier isBefore
  simp only [Bool.not_eq_true', decide_eq_false_iff_not, not_exists, not_and] at differs
  exact differs other loadedEarlier (sameAgain.trans same)

end Document.Contributes

/-- What the lists of a resolution hold, when the document came with no import resolved. -/
structure Resolution.Tracks (loader : ImportLoader) (document : Document) (state : Resolution) : Prop where
  visited : ∀ identifier, identifier ∈ state.visited ↔ identifier ∈ state.merged.resolvedImports
  seen : ∀ id, id ∈ state.seenIds ↔ id = document.id ∨
    ∃ identifier ∈ state.merged.resolvedImports, ∃ found, loader.document identifier = .ok found ∧ found.id = id
  loads : ∀ identifier ∈ state.merged.resolvedImports, ∃ found, loader.document identifier = .ok found
  imports : ∀ identifier, identifier ∈ state.merged.resolvedImports ∨ identifier ∈ state.queue →
    document.Imports loader identifier
  declared : ∀ identifier ∈ document.imports,
    identifier ∈ state.merged.resolvedImports ∨ identifier ∈ state.queue
  closed : ∀ identifier found, document.Contributes loader state.merged.resolvedImports identifier found →
    ∀ other ∈ found.imports, other ∈ state.merged.resolvedImports ∨ other ∈ state.queue

namespace Resolution

variable {loader : ImportLoader} {document : Document}

theorem tracks_start (unresolved : document.resolvedImports = []) :
    (start document).Tracks loader document where
  visited identifier := Iff.rfl
  seen id := by simp [start, unresolved]
  loads identifier resolved := by simp [start, unresolved] at resolved
  imports identifier waits := by
    simp only [start, unresolved, List.not_mem_nil, false_or] at waits
    exact .declared waits
  declared identifier declares := .inr declares
  closed identifier found contributes := by
    have member := contributes.mem
    simp [start, unresolved] at member

namespace Tracks

variable {state : Resolution}

/-- An id is new exactly if neither the document nor any import so far has it. -/
theorem unseen_iff (tracks : state.Tracks loader document) (id : String) :
    id ∉ state.seenIds ↔ id ≠ document.id ∧ ∀ earlier ∈ state.merged.resolvedImports, ∀ other,
      loader.document earlier = .ok other → other.id ≠ id := by
  rw [tracks.seen]
  push Not
  rfl

/-- The contributions after one more import: if its id is new it contributes its schema. -/
theorem contributes_recorded_iff (tracks : state.Tracks loader document) {new : String} {brought : Document}
    (loaded : loader.document new = .ok brought) {identifier : String} {found : Document} :
    document.Contributes loader (state.merged.resolvedImports ++ [new]) identifier found ↔
      document.Contributes loader state.merged.resolvedImports identifier found ∨
        identifier = new ∧ found = brought ∧ brought.id ∉ state.seenIds := by
  rw [Document.Contributes.append_iff, tracks.unseen_iff, loaded]
  constructor
  · rintro (old | ⟨rfl, same, foreign, isFirst⟩)
    · exact .inl old
    · cases same
      exact .inr ⟨rfl, rfl, foreign, isFirst⟩
  · rintro (old | ⟨rfl, rfl, foreign, isFirst⟩)
    · exact .inl old
    · exact .inr ⟨rfl, rfl, foreign, isFirst⟩

/-- What the lists hold after one more import was recorded. -/
theorem record (tracks : state.Tracks loader document) {new : String} {queue : List String}
    (waiting : state.queue = new :: queue) {brought : Document} (loaded : loader.document new = .ok brought)
    {merged : Document} (recorded : merged.resolvedImports = state.merged.resolvedImports ++ [new])
    {seenIds others : List String}
    (seen : ∀ id, id ∈ seenIds ↔ id = brought.id ∨ id ∈ state.seenIds)
    (enqueued : brought.id ∉ state.seenIds → others = brought.imports)
    (skipped : brought.id ∈ state.seenIds → others = []) :
    Tracks loader document ⟨merged, new :: state.visited, seenIds, queue ++ others⟩ := by
  have isImport : document.Imports loader new := tracks.imports new (.inr (by simp [waiting]))
  have moves {identifier : String}
      (known : identifier ∈ state.merged.resolvedImports ∨ identifier ∈ state.queue) :
      identifier ∈ merged.resolvedImports ∨ identifier ∈ queue ++ others := by
    rw [waiting] at known
    simp only [recorded, List.mem_append, List.mem_cons, List.not_mem_nil, or_false] at known ⊢
    tauto
  constructor
  · intro identifier
    simp only [recorded, List.mem_cons, List.mem_append, List.not_mem_nil, or_false, tracks.visited]
    exact or_comm
  · intro id
    simp only [seen, tracks.seen, recorded, List.mem_append, List.mem_singleton]
    constructor
    · rintro (rfl | rfl | ⟨identifier, resolved, found, brings⟩)
      · exact .inr ⟨new, .inr rfl, brought, loaded, rfl⟩
      · exact .inl rfl
      · exact .inr ⟨identifier, .inl resolved, found, brings⟩
    · rintro (rfl | ⟨identifier, resolved | rfl, found, brings, rfl⟩)
      · exact .inr (.inl rfl)
      · exact .inr (.inr ⟨identifier, resolved, found, brings, rfl⟩)
      · rw [loaded] at brings
        cases brings
        exact .inl rfl
  · intro identifier resolved
    rw [recorded] at resolved
    rcases List.mem_append.mp resolved with old | isNew
    · exact tracks.loads identifier old
    · rw [List.mem_singleton.mp isNew]
      exact ⟨brought, loaded⟩
  · intro identifier known
    simp only [recorded, List.mem_append, List.mem_singleton] at known
    rcases known with (old | rfl) | waits | added
    · exact tracks.imports identifier (.inl old)
    · exact isImport
    · exact tracks.imports identifier (.inr (by simp [waiting, waits]))
    · by_cases unseen : brought.id ∉ state.seenIds
      · rw [enqueued unseen] at added
        exact .through isImport loaded ((tracks.unseen_iff _).mp unseen).1 added
      · rw [skipped (Decidable.not_not.mp unseen)] at added
        cases added
  · intro identifier declares
    exact moves (tracks.declared identifier declares)
  · intro identifier found contributes other declares
    simp only [recorded, tracks.contributes_recorded_iff loaded] at contributes
    rcases contributes with old | ⟨rfl, rfl, unseen⟩
    · exact moves (tracks.closed identifier found old other declares)
    · exact .inr (List.mem_append_right _ (enqueued unseen ▸ declares))

/-- Every step keeps the lists. -/
theorem advances (tracks : state.Tracks loader document) {identifier : String} {queue : List String}
    (waiting : state.queue = identifier :: queue) {next : Resolution}
    (step : Advances loader state identifier queue next) : next.Tracks loader document := by
  cases step with
  | passed known =>
    have moves {other : String} (before : other ∈ state.merged.resolvedImports ∨ other ∈ state.queue) :
        other ∈ state.merged.resolvedImports ∨ other ∈ queue := by
      rw [waiting, List.mem_cons] at before
      rcases before with resolved | rfl | waits
      · exact .inl resolved
      · exact .inl ((tracks.visited _).mp known)
      · exact .inr waits
    exact { tracks with
      imports := fun other before => tracks.imports other (before.imp_right (by simp [waiting]; exact .inr))
      declared := fun other declares => moves (tracks.declared other declares)
      closed := fun other found contributes name declares =>
        moves (tracks.closed other found contributes name declares) }
  | @repeated found isNew loaded seen =>
    have sameIds (id : String) : id ∈ state.seenIds ↔ id = found.id ∨ id ∈ state.seenIds :=
      ⟨.inr, fun either => either.elim (fun same => same ▸ seen) fun known => known⟩
    have kept : Tracks loader document
        ⟨state.merged.recordImport identifier, identifier :: state.visited, state.seenIds, queue ++ []⟩ :=
      tracks.record waiting loaded rfl sameIds (fun unseen => absurd seen unseen) fun _ => rfl
    rwa [List.append_nil] at kept
  | merged isNew loaded unseen union =>
    refine tracks.record waiting loaded (Document.merge_resolvedImports union) ?_ (fun _ => rfl)
      (fun seen => absurd seen unseen)
    intro id
    exact List.mem_cons

end Tracks

/-- What the merged document of a resolution says: no less than the contributions so far, and no more than
they and the document itself. -/
structure Gathers (loader : ImportLoader) (document : Document) (state : Resolution) : Prop where
  covers : ∀ identifier found, document.Contributes loader state.merged.resolvedImports identifier found →
    state.merged.Covers found
  least : ∀ bound : Document, bound.Covers document →
    (∀ identifier found, document.Contributes loader state.merged.resolvedImports identifier found →
      bound.Covers found) → bound.Covers state.merged

theorem gathers_start (unresolved : document.resolvedImports = []) :
    (start document).Gathers loader document where
  covers identifier found contributes := by
    have member := contributes.mem
    simp [start, unresolved] at member
  least bound covers _ := covers

/-- Every step keeps what the merged document says. -/
theorem Gathers.advances {state : Resolution} (gathers : state.Gathers loader document)
    (tracks : state.Tracks loader document) {identifier : String} {queue : List String} {next : Resolution}
    (step : Advances loader state identifier queue next) : next.Gathers loader document := by
  cases step with
  | passed => exact { gathers with }
  | @repeated found isNew loaded seen =>
    have same {other : String} {schema : Document} :
        document.Contributes loader (state.merged.resolvedImports ++ [identifier]) other schema ↔
          document.Contributes loader state.merged.resolvedImports other schema := by
      -- The id was seen before, so the recorded identifier contributes nothing.
      rw [tracks.contributes_recorded_iff loaded]
      exact or_iff_left fun contributes => contributes.2.2 seen
    constructor
    · intro other schema contributes
      exact (gathers.covers other schema (same.mp contributes)).recordImport identifier
    · intro bound covers each
      have below := gathers.least bound covers fun other schema contributes =>
        each other schema (same.mpr contributes)
      exact { below with }
  | @merged found merged isNew loaded unseen union =>
    have takesIn := takesIn_mergeDocument (ImportLoader.isNamed loaded)
    constructor
    · intro other schema contributes
      simp only [Document.merge_resolvedImports union] at contributes
      rcases (tracks.contributes_recorded_iff loaded).mp contributes with old | ⟨rfl, rfl, _⟩
      · exact (takesIn.keeps union).trans ((gathers.covers other schema old).recordImport identifier)
      · exact takesIn.adds union
    · intro bound covers each
      simp only [Document.merge_resolvedImports union] at each
      have below := gathers.least bound covers fun other schema contributes =>
        each other schema ((tracks.contributes_recorded_iff loaded).mpr (.inl contributes))
      have newest := each identifier found
        ((tracks.contributes_recorded_iff loaded).mpr (.inr ⟨rfl, rfl, unseen⟩))
      exact takesIn.least union { below with } newest

end Resolution

/-- What resolving comes to for a document that came with no import resolved. -/
structure Document.ResolvesTo (document : Document) (loader : ImportLoader) (result : Document) : Prop where
  loads : ∀ identifier ∈ result.resolvedImports, ∃ found, loader.document identifier = .ok found
  imports : ∀ identifier ∈ result.resolvedImports, document.Imports loader identifier
  declared : ∀ identifier ∈ document.imports, identifier ∈ result.resolvedImports
  closed : ∀ identifier found, document.Contributes loader result.resolvedImports identifier found →
    ∀ other ∈ found.imports, other ∈ result.resolvedImports
  contributions : ∀ identifier found, document.Contributes loader result.resolvedImports identifier found →
    result.Covers found
  least : ∀ bound : Document, bound.Covers document →
    (∀ identifier found, document.Contributes loader result.resolvedImports identifier found →
      bound.Covers found) → bound.Covers result

theorem Document.resolvesTo_of_resolvesImports {document result : Document} {loader : ImportLoader}
    (unresolved : document.resolvedImports = [])
    (success : document.ResolvesImports loader (.ok result)) : document.ResolvesTo loader result := by
  obtain ⟨last, ⟨tracks, gathers⟩, ends, rfl⟩ := Resolution.Ends.keeps
    (fun state => state.Tracks loader document ∧ state.Gathers loader document)
    (fun waiting step before => ⟨before.1.advances waiting step, before.2.advances before.1 step⟩)
    success ⟨tracks_start unresolved, gathers_start unresolved⟩
  have settled {identifier : String}
      (known : identifier ∈ last.merged.resolvedImports ∨ identifier ∈ last.queue) :
      identifier ∈ last.merged.resolvedImports := by
    rw [ends] at known
    exact known.resolve_right List.not_mem_nil
  exact {
    loads := tracks.loads
    imports := fun identifier resolved => tracks.imports identifier (.inl resolved)
    declared := fun identifier declares => settled (tracks.declared identifier declares)
    closed := fun identifier found contributes other declares =>
      settled (tracks.closed identifier found contributes other declares)
    contributions := gathers.covers
    least := gathers.least }

namespace Resolution

variable {loader : ImportLoader} {document bound : Document} {state : Resolution}

/-- The resolution goes on where the next import loads and some document covers it and all others. -/
theorem exists_advances (covers : bound.Covers document)
    (each : ∀ identifier, document.Imports loader identifier → ∃ found,
      loader.document identifier = .ok found ∧ (found.id ≠ document.id → bound.Covers found))
    (tracks : state.Tracks loader document) (gathers : state.Gathers loader document) {identifier : String}
    (isImport : document.Imports loader identifier) (queue : List String) :
    ∃ next, Advances loader state identifier queue next := by
  obtain ⟨found, loaded, covered⟩ := each identifier isImport
  by_cases known : identifier ∈ state.visited
  · exact ⟨_, .passed known⟩
  · by_cases seen : found.id ∈ state.seenIds
    · exact ⟨_, .repeated known loaded seen⟩
    · -- Only a merge can fail, and it does not where the bound covers both of its parts.
      have below : bound.Covers state.merged := by
        refine gathers.least bound covers ?_
        intro other schema contributes
        obtain ⟨again, loadedAgain, coveredAgain⟩ := each other (tracks.imports other (.inl contributes.mem))
        obtain rfl := Except.ok.inj (loadedAgain.symm.trans contributes.loaded)
        exact coveredAgain contributes.foreign
      have recorded : bound.Covers (state.merged.recordImport identifier) := { below with }
      have foreign := ((tracks.unseen_iff _).mp seen).1
      obtain ⟨merged, union⟩ :=
        (takesIn_mergeDocument (ImportLoader.isNamed loaded)).exists_ok recorded (covered foreign)
      exact ⟨_, .merged known loaded seen union⟩

/-- A step finds one more of finitely many imports or shortens the queue. -/
theorem Advances.lex {reachable : List String} {identifier : String} {queue : List String}
    {next : Resolution} (step : Advances loader state identifier queue next)
    (isReachable : identifier ∈ reachable) :
    Prod.Lex (· < ·) (· < ·) ((unfound reachable next.visited).length, next.queue.length)
      ((unfound reachable state.visited).length, (identifier :: queue).length) := by
  cases step with
  | passed => exact Prod.Lex.right _ (Nat.lt_succ_self _)
  | repeated isNew => exact Prod.Lex.left _ _ (unfound_cons_lt isReachable isNew)
  | merged isNew => exact Prod.Lex.left _ _ (unfound_cons_lt isReachable isNew)

/-- The resolution ends well where the imports are finitely many and all load, and some document covers them
all. -/
theorem exists_ends {reachable : List String}
    (finite : ∀ identifier, document.Imports loader identifier → identifier ∈ reachable)
    (covers : bound.Covers document)
    (each : ∀ identifier, document.Imports loader identifier → ∃ found,
      loader.document identifier = .ok found ∧ (found.id ≠ document.id → bound.Covers found))
    (state : Resolution) (tracks : state.Tracks loader document) (gathers : state.Gathers loader document) :
    ∃ result, Ends loader state (.ok result) := by
  cases waiting : state.queue with
  | nil => exact ⟨_, .done waiting⟩
  | cons identifier queue =>
    have isImport := tracks.imports identifier (.inr (by simp [waiting]))
    obtain ⟨next, step⟩ := exists_advances covers each tracks gathers isImport queue
    have less := step.lex (finite identifier isImport)
    obtain ⟨result, rest⟩ :=
      exists_ends finite covers each next (tracks.advances waiting step) (gathers.advances tracks step)
    exact ⟨result, .step waiting (advance_eq_ok_iff.mpr step) rest⟩
termination_by ((unfound reachable state.visited).length, state.queue.length)
decreasing_by
  rw [waiting]
  exact less

end Resolution

end ClassSchema
