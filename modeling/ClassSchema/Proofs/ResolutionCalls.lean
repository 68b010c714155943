import Mathlib.Data.List.Nodup
import ClassSchema.Import.Library
import ClassSchema.Proofs.ResolutionRuns

/-! # Calls of a resolution

A resolution asks its loader for import identifiers and merges the schemas that they bring. It asks for no
identifier twice, because it passes over those that it has visited, and it merges no schema id twice and never
the one of its own document, because it has seen them. From a source it ends after a number of steps that the
imports of the document and of the texts of the source bound. In the end it has recorded exactly what is reached
by the imports of the document and of the schemas that were merged.
-/

namespace ClassSchema

/-- What a step of a resolution does besides moving the queue on. -/
inductive ResolutionCall where
  /-- The loader is asked for an import identifier. -/
  | load (identifier : String)
  /-- The schema that came for an import identifier is merged in. -/
  | merge (identifier : String) (found : Document)

namespace ResolutionCall

/-- The import identifier that the loader is asked for. -/
def loaded? : ResolutionCall → Option String
  | .load identifier => some identifier
  | .merge _ _ => none

/-- The id of the schema that is merged in. -/
def mergedId? : ResolutionCall → Option String
  | .load _ => none
  | .merge _ found => some found.id

/-- The imports of the schema that is merged in. -/
def imports : ResolutionCall → List String
  | .load _ => []
  | .merge _ found => found.imports

end ResolutionCall

open ResolutionCall

namespace Resolution

/-- The calls of taking one identifier from the queue, whatever comes of them. -/
def calls (loader : ImportLoader) (state : Resolution) (identifier : String) : List ResolutionCall :=
  if identifier ∈ state.visited then []
  else
    match loader.document identifier with
    | .error _ => [.load identifier]
    | .ok found =>
      if found.id ∈ state.seenIds then [.load identifier] else [.load identifier, .merge identifier found]

/-- What a resolution comes to from a state on, with the number of its steps and its calls in order. A step that
fails is the last one, and its calls count. -/
inductive Runs (loader : ImportLoader) :
    Resolution → Nat → List ResolutionCall → Except SchemaError Document → Prop
  | done {state : Resolution} (empty : state.queue = []) : Runs loader state 0 [] (.ok state.merged)
  | failed {state : Resolution} {identifier : String} {queue : List String} {error : SchemaError}
      (waiting : state.queue = identifier :: queue)
      (failure : state.advance loader identifier queue = .error error) :
      Runs loader state 1 (state.calls loader identifier) (.error error)
  | step {state next : Resolution} {identifier : String} {queue : List String} {steps : Nat}
      {calls : List ResolutionCall} {result : Except SchemaError Document}
      (waiting : state.queue = identifier :: queue)
      (advanced : state.advance loader identifier queue = .ok next) (rest : Runs loader next steps calls result) :
      Runs loader state (steps + 1) (state.calls loader identifier ++ calls) result

variable {loader : ImportLoader} {state next : Resolution} {identifier : String} {queue : List String}

/-- The loader is asked for an identifier exactly if it was not visited. -/
theorem loaded_calls (loader : ImportLoader) (state : Resolution) (identifier : String) :
    (state.calls loader identifier).filterMap loaded? = if identifier ∈ state.visited then [] else [identifier] := by
  unfold calls
  split
  · rfl
  · split
    · rfl
    · split <;> rfl

/-- What is merged in has an id that was not seen. -/
theorem merged_calls (loader : ImportLoader) (state : Resolution) (identifier : String) :
    ((state.calls loader identifier).filterMap mergedId?).Nodup ∧
      ∀ id ∈ (state.calls loader identifier).filterMap mergedId?, id ∉ state.seenIds := by
  unfold calls
  split
  · simp
  · split
    · simp [List.filterMap, mergedId?]
    · rename_i found _
      by_cases seen : found.id ∈ state.seenIds <;> simp [seen, List.filterMap, mergedId?]

/-- The calls of a step are all that it adds to the lists of a resolution. -/
theorem Advances.adds_calls (step : Advances loader state identifier queue next) :
    next.visited = (state.calls loader identifier).filterMap loaded? ++ state.visited ∧
      next.seenIds = (state.calls loader identifier).filterMap mergedId? ++ state.seenIds ∧
      next.queue = queue ++ (state.calls loader identifier).flatMap imports ∧
      next.merged.resolvedImports =
        state.merged.resolvedImports ++ (state.calls loader identifier).filterMap loaded? := by
  cases step with
  | passed known => simp [calls, known]
  | repeated isNew loaded seen =>
    have made : state.calls loader identifier = [.load identifier] := by simp [calls, isNew, loaded, seen]
    rw [made]
    exact ⟨rfl, rfl, (List.append_nil queue).symm, rfl⟩
  | @merged found merged isNew loaded unseen union =>
    have made : state.calls loader identifier = [.load identifier, .merge identifier found] := by
      simp [calls, isNew, loaded, unseen]
    rw [made]
    refine ⟨rfl, rfl, ?_, Document.merge_resolvedImports union⟩
    exact congrArg (queue ++ ·) (List.append_nil found.imports).symm

/-- What is merged in came for the identifier that was taken from the queue. -/
theorem eq_of_merge_mem_calls {other : String} {found : Document}
    (merges : .merge other found ∈ state.calls loader identifier) : other = identifier := by
  unfold calls at merges
  split at merges
  · cases merges
  · split at merges
    · simp at merges
    · split at merges
      · simp at merges
      · simp at merges
        exact merges.1

/-- A step depends on the loader only through what it is asked for. -/
theorem advance_and_calls_congr {other : ImportLoader}
    (same : ∀ asked ∈ (state.calls loader identifier).filterMap loaded?, other asked = loader asked) :
    state.advance other identifier queue = state.advance loader identifier queue ∧
      state.calls other identifier = state.calls loader identifier := by
  rw [loaded_calls] at same
  by_cases known : identifier ∈ state.visited
  · simp [advance, calls, known]
  · rw [if_neg known, List.forall_mem_singleton] at same
    simp [advance, calls, ImportLoader.document, same]

namespace Runs

variable {steps : Nat} {calls : List ResolutionCall} {result : Except SchemaError Document}

/-- Runs have the results of resolutions, with the steps and the calls besides. -/
theorem exists_iff_ends : (∃ steps calls, Runs loader state steps calls result) ↔ Ends loader state result := by
  constructor
  · rintro ⟨steps, calls, run⟩
    induction run with
    | done empty => exact .done empty
    | failed waiting failure => exact .failed waiting failure
    | step waiting advanced _ ih => exact .step waiting advanced ih
  · intro ends
    induction ends with
    | done empty => exact ⟨_, _, .done empty⟩
    | failed waiting failure => exact ⟨_, _, .failed waiting failure⟩
    | step waiting advanced _ ih =>
      obtain ⟨steps, calls, rest⟩ := ih
      exact ⟨_, _, .step waiting advanced rest⟩

/-- There is one run from a state at most. -/
theorem unique {otherSteps : Nat} {otherCalls : List ResolutionCall} {otherResult : Except SchemaError Document}
    (left : Runs loader state steps calls result) (right : Runs loader state otherSteps otherCalls otherResult) :
    steps = otherSteps ∧ calls = otherCalls ∧ result = otherResult := by
  induction left generalizing otherSteps otherCalls with
  | done empty =>
    cases right with
    | done => exact ⟨rfl, rfl, rfl⟩
    | failed waiting => exact absurd (empty.symm.trans waiting) nofun
    | step waiting => exact absurd (empty.symm.trans waiting) nofun
  | failed waiting failure =>
    cases right with
    | done empty => exact absurd (empty.symm.trans waiting) nofun
    | failed waitingAgain failureAgain =>
      obtain ⟨rfl, rfl⟩ := List.cons.inj (waiting.symm.trans waitingAgain)
      obtain rfl := Except.error.inj (failure.symm.trans failureAgain)
      exact ⟨rfl, rfl, rfl⟩
    | step waitingAgain advanced =>
      obtain ⟨rfl, rfl⟩ := List.cons.inj (waiting.symm.trans waitingAgain)
      exact absurd (failure.symm.trans advanced) nofun
  | step waiting advanced _ ih =>
    cases right with
    | done empty => exact absurd (empty.symm.trans waiting) nofun
    | failed waitingAgain failure =>
      obtain ⟨rfl, rfl⟩ := List.cons.inj (waiting.symm.trans waitingAgain)
      exact absurd (failure.symm.trans advanced) nofun
    | step waitingAgain advancedAgain rest =>
      obtain ⟨rfl, rfl⟩ := List.cons.inj (waiting.symm.trans waitingAgain)
      obtain rfl := Except.ok.inj (advanced.symm.trans advancedAgain)
      obtain ⟨rfl, rfl, rfl⟩ := ih rest
      exact ⟨rfl, rfl, rfl⟩

/-- From a source there are no more steps than what waits and what the texts may still contribute. -/
theorem steps_le {source : ImportSource} (run : Runs source.load state steps calls result) :
    steps ≤ source.pending state.seenIds + state.queue.length := by
  induction run with
  | done => exact Nat.zero_le _
  | failed waiting =>
    rw [waiting, List.length_cons]
    omega
  | step waiting advanced _ ih =>
    have less := (advance_eq_ok_iff.mp advanced).measure_lt
    rw [waiting]
    omega

/-- What each step finds for the first time, and adds to what the state knows, is found once in a whole run. -/
theorem nodup_of_fresh (pick : ResolutionCall → Option String) (known : Resolution → List String)
    (fresh : ∀ state identifier, ((Resolution.calls loader state identifier).filterMap pick).Nodup ∧
      ∀ name ∈ (Resolution.calls loader state identifier).filterMap pick, name ∉ known state)
    (adds : ∀ {state identifier queue next}, Advances loader state identifier queue next →
      known next = (Resolution.calls loader state identifier).filterMap pick ++ known state)
    (run : Runs loader state steps calls result) :
    (calls.filterMap pick).Nodup ∧ ∀ name ∈ calls.filterMap pick, name ∉ known state := by
  induction run with
  | done => simp
  | failed => exact fresh _ _
  | @step state next identifier queue _ _ _ waiting advanced _ ih =>
    obtain ⟨distinct, isNew⟩ := fresh state identifier
    obtain ⟨distinctLater, isNewLater⟩ := ih
    rw [adds (advance_eq_ok_iff.mp advanced)] at isNewLater
    simp only [List.mem_append, not_or] at isNewLater
    rw [List.filterMap_append]
    constructor
    · rw [List.nodup_append]
      refine ⟨distinct, distinctLater, ?_⟩
      rintro name first other later rfl
      exact (isNewLater name later).1 first
    · intro name member
      rcases List.mem_append.mp member with first | later
      · exact isNew name first
      · exact (isNewLater name later).2

/-- The loader is asked for no identifier twice, and for none that was visited. -/
theorem nodup_loaded (run : Runs loader state steps calls result) :
    (calls.filterMap loaded?).Nodup ∧ ∀ identifier ∈ calls.filterMap loaded?, identifier ∉ state.visited := by
  apply nodup_of_fresh loaded? visited _ _ run
  · intro state identifier
    rw [loaded_calls]
    by_cases known : identifier ∈ state.visited <;> simp [known]
  · intro _ _ _ _ step
    exact step.adds_calls.1

/-- No schema id is merged twice, and none that was seen. -/
theorem nodup_merged (run : Runs loader state steps calls result) :
    (calls.filterMap mergedId?).Nodup ∧ ∀ id ∈ calls.filterMap mergedId?, id ∉ state.seenIds :=
  nodup_of_fresh mergedId? seenIds (merged_calls loader) (fun step => step.adds_calls.2.1) run

/-- Whatever the loader is asked for is recorded in its order. -/
theorem resolvedImports_eq {resolved : Document} (run : Runs loader state steps calls (.ok resolved)) :
    resolved.resolvedImports = state.merged.resolvedImports ++ calls.filterMap loaded? := by
  generalize success : Except.ok resolved = outcome at run
  induction run with
  | done =>
    cases success
    simp
  | failed => cases success
  | step _ advanced _ ih =>
    rw [ih success, (advance_eq_ok_iff.mp advanced).adds_calls.2.2.2, List.filterMap_append, List.append_assoc]

/-- Another loader that says the same of what is asked for comes to the same run. -/
theorem congr {other : ImportLoader} (run : Runs loader state steps calls result)
    (same : ∀ identifier ∈ calls.filterMap loaded?, other identifier = loader identifier) :
    Runs other state steps calls result := by
  induction run with
  | done empty => exact .done empty
  | failed waiting failure =>
    obtain ⟨advance, calls⟩ := advance_and_calls_congr same
    rw [← calls]
    exact .failed waiting (advance.trans failure)
  | step waiting advanced _ ih =>
    simp only [List.filterMap_append, List.mem_append] at same
    obtain ⟨advance, calls⟩ := advance_and_calls_congr fun asked first => same asked (.inl first)
    rw [← calls]
    exact .step waiting (advance.trans advanced) (ih fun asked later => same asked (.inr later))

end Runs

/-- The identifiers that are reached from some by the imports of the schemas that calls merge in. -/
inductive Reaches (calls : List ResolutionCall) (first : List String) : String → Prop
  | first {identifier : String} (member : identifier ∈ first) : Reaches calls first identifier
  | through {identifier other : String} {found : Document} (reached : Reaches calls first identifier)
      (merges : .merge identifier found ∈ calls) (declares : other ∈ found.imports) : Reaches calls first other

namespace Runs

variable {steps : Nat} {calls : List ResolutionCall} {result : Except SchemaError Document}

/-- The loader is asked only for what is reached from the queue. -/
theorem reaches_of_mem_loaded (run : Runs loader state steps calls result) :
    ∀ identifier ∈ calls.filterMap loaded?, Reaches calls state.queue identifier := by
  have ofStep {state : Resolution} {identifier : String} {queue : List String}
      (waiting : state.queue = identifier :: queue) (calls : List ResolutionCall) :
      ∀ other ∈ (state.calls loader identifier).filterMap loaded?, Reaches calls state.queue other := by
    intro other asked
    rw [loaded_calls] at asked
    split at asked
    · cases asked
    · rw [List.mem_singleton.mp asked, waiting]
      exact .first List.mem_cons_self
  induction run with
  | done => simp
  | failed waiting => exact ofStep waiting _
  | @step state next identifier queue _ later _ waiting advanced _ ih =>
    intro other asked
    rw [List.filterMap_append] at asked
    rcases List.mem_append.mp asked with early | late
    · exact ofStep waiting _ other early
    · have reached := ih other late
      clear late asked ih
      induction reached with
      | first waits =>
        rw [(advance_eq_ok_iff.mp advanced).adds_calls.2.2.1] at waits
        rcases List.mem_append.mp waits with before | added
        · rw [waiting]
          exact .first (List.mem_cons_of_mem _ before)
        · -- What the step put at the end of the queue is imported by what it merged.
          obtain ⟨call, made, declares⟩ := List.mem_flatMap.mp added
          cases call with
          | load => cases declares
          | merge asked found =>
            obtain rfl := eq_of_merge_mem_calls made
            have taken : Reaches (state.calls loader asked ++ later) state.queue asked :=
              .first (by rw [waiting]; exact List.mem_cons_self)
            exact .through taken (List.mem_append_left _ made) declares
      | through _ merges declares reached => exact .through reached (List.mem_append_right _ merges) declares

/-- In the end all that waited, and all that merged schemas import, is visited. -/
theorem settles {resolved : Document} (run : Runs loader state steps calls (.ok resolved)) :
    (∀ identifier ∈ state.queue, identifier ∈ calls.filterMap loaded? ++ state.visited) ∧
      ∀ identifier ∈ calls.flatMap imports, identifier ∈ calls.filterMap loaded? ++ state.visited := by
  generalize success : Except.ok resolved = outcome at run
  induction run with
  | done empty =>
    rw [empty]
    simp
  | failed => cases success
  | @step state next identifier queue _ later _ waiting advanced _ ih =>
    obtain ⟨visited, _, enqueued, _⟩ := (advance_eq_ok_iff.mp advanced).adds_calls
    obtain ⟨waited, imported⟩ := ih success
    have settled {other : String} (known : other ∈ later.filterMap loaded? ++ next.visited) :
        other ∈ (state.calls loader identifier ++ later).filterMap loaded? ++ state.visited := by
      rw [visited] at known
      simp only [List.filterMap_append, List.mem_append] at known ⊢
      tauto
    constructor
    · intro other waits
      rw [waiting] at waits
      rcases List.mem_cons.mp waits with rfl | waits
      · apply settled
        rw [visited, loaded_calls]
        by_cases known : other ∈ state.visited <;> simp [known]
      · apply settled (waited other _)
        rw [enqueued]
        exact List.mem_append_left _ waits
    · intro other declares
      rw [List.flatMap_append] at declares
      rcases List.mem_append.mp declares with early | late
      · apply settled (waited other _)
        rw [enqueued]
        exact List.mem_append_right _ early
      · exact settled (imported other late)

/-- A run that ends well has asked for exactly what is reached from the queue and was not visited. -/
theorem mem_loaded_iff {resolved : Document} (run : Runs loader state steps calls (.ok resolved))
    (unvisited : state.visited = []) (identifier : String) :
    identifier ∈ calls.filterMap loaded? ↔ Reaches calls state.queue identifier := by
  constructor
  · exact run.reaches_of_mem_loaded identifier
  · intro reached
    obtain ⟨waited, imported⟩ := run.settles
    rw [unvisited, List.append_nil] at waited imported
    cases reached with
    | first waits => exact waited _ waits
    | through _ merges declares => exact imported _ (List.mem_flatMap.mpr ⟨_, merges, declares⟩)

end Runs

end Resolution

/-- From a source, resolving the imports of a document that has none resolved is one run, which ends. It asks for
no identifier twice, and nothing but the answers matters to it; it merges no schema id twice, and never the one of
the document. Where it ends well, the recorded imports are distinct, and they are the ones that are reached. -/
theorem Document.exists_run_of_unresolved {document : Document} (unresolved : document.resolvedImports = [])
    (source : ImportSource) :
    ∃ steps calls,
      (∀ otherSteps otherCalls result,
        Resolution.Runs source.load (Resolution.start document) otherSteps otherCalls result ↔
          otherSteps = steps ∧ otherCalls = calls ∧ result = document.resolveImports source) ∧
      steps ≤ source.pending [document.id] + document.imports.length ∧
      (calls.filterMap loaded?).Nodup ∧
      (∀ loader : ImportLoader, (∀ identifier ∈ calls.filterMap loaded?, loader identifier = source.load identifier) →
        Resolution.Runs loader (Resolution.start document) steps calls (document.resolveImports source)) ∧
      (calls.filterMap mergedId?).Nodup ∧ document.id ∉ calls.filterMap mergedId? ∧
      ∀ resolved, document.resolveImports source = .ok resolved →
        resolved.resolvedImports.Nodup ∧
          ∀ identifier, identifier ∈ resolved.resolvedImports ↔
            Resolution.Reaches calls document.imports identifier := by
  obtain ⟨steps, calls, run⟩ := Resolution.Runs.exists_iff_ends.mpr (resolvesImports_iff.mpr rfl)
  have asked := run.nodup_loaded.1
  obtain ⟨merged, isNew⟩ := run.nodup_merged
  refine ⟨steps, calls, ?_, run.steps_le, asked, fun loader => run.congr, merged, ?_, ?_⟩
  · intro otherSteps otherCalls result
    constructor
    · exact fun other => other.unique run
    · rintro ⟨rfl, rfl, rfl⟩
      exact run
  · intro own
    exact isNew _ own List.mem_cons_self
  · intro resolved success
    rw [success] at run
    have recorded : resolved.resolvedImports = calls.filterMap loaded? := by
      rw [run.resolvedImports_eq]
      simp [Resolution.start, unresolved]
    rw [recorded]
    exact ⟨asked, run.mem_loaded_iff unresolved⟩

/-- A document that imports one schema twice, and a schema with its own id. -/
def Document.circling : Document :=
  { blank with
    id := "root"
    name := "root"
    imports := ["left", "left", "own"] }

/-- The built-in library with two schemas that import each other, one of them under two identifiers, and a schema
with the id of the document, whose import is nowhere. -/
def ImportSource.circling : ImportSource :=
  .orElse .builtin (.ofTable
    [("left", "{id: left, name: left, imports: [right, left]}"),
     ("right", "{id: right, name: right, imports: [left, again]}"),
     ("again", "{id: left, name: left, imports: [right, left]}"),
     ("own", "{id: root, name: root, imports: [nowhere]}")])

theorem Document.exists_run_of_unresolved_circling :
    circling.resolvedImports = [] ∧ ∃ steps calls resolved,
      Resolution.Runs ImportSource.circling.load (Resolution.start circling) steps calls (.ok resolved) ∧
        (calls.filterMap loaded?).Nodup ∧ (calls.filterMap mergedId?).Nodup ∧
        "root" ∉ calls.filterMap mergedId? ∧
        resolved.resolvedImports = ["left", "own", "right", "again"] ∧
        Resolution.Reaches calls circling.imports "again" ∧ ¬ Resolution.Reaches calls circling.imports "nowhere" := by
  have computed : (Resolution.runWithin ImportSource.circling.load 9 (Resolution.start circling)).map
      (fun result => result.toOption.map Document.resolvedImports) =
        some (some ["left", "own", "right", "again"]) := by
    decide +kernel
  obtain ⟨result, ends, recorded⟩ := Option.map_eq_some_iff.mp computed
  cases result with
  | error error => cases recorded
  | ok resolved =>
    have success := resolvesImports_iff.mp (Resolution.ends_of_runWithin ends)
    have recorded := Option.some.inj recorded
    obtain ⟨steps, calls, runs, _, asked, _, merged, foreign, settles⟩ :=
      exists_run_of_unresolved (rfl : circling.resolvedImports = []) ImportSource.circling
    obtain ⟨_, reached⟩ := settles resolved success
    rw [recorded] at reached
    refine ⟨rfl, steps, calls, resolved, ?_, asked, merged, foreign, recorded, ?_, ?_⟩
    · exact (runs _ _ _).mpr ⟨rfl, rfl, success.symm⟩
    · exact (reached "again").mp (by decide)
    · exact fun isReached => absurd ((reached "nowhere").mpr isReached) (by decide)

end ClassSchema
