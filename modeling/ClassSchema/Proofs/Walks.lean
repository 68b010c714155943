import Mathlib.Logic.Relation
import ClassSchema.Reachability

/-! # What walks find

A walk ends with a set of nodes that is closed under following, and it finds nothing but what was pending and what
follows from it. So the nodes that are found from a name are those on the paths from it.
-/

namespace ClassSchema

open Relation

variable (nodes : List String) (next : String → List String)

/-- A walk keeps what is found, finds the pending nodes, and ends closed if only pending names are missing. -/
theorem walk_closed (found pending : List String)
    (missing : ∀ name ∈ found, ∀ other ∈ next name, other ∈ nodes → other ∈ found ∨ other ∈ pending) :
    found ⊆ walk nodes next found pending ∧
      (∀ name ∈ pending, name ∈ nodes → name ∈ walk nodes next found pending) ∧
      ∀ name ∈ walk nodes next found pending, ∀ other ∈ next name, other ∈ nodes →
        other ∈ walk nodes next found pending := by
  induction found, pending using walk.induct nodes next with
  | case1 found =>
    rw [walk]
    refine ⟨List.Subset.refl _, by simp, ?_⟩
    intro name isFound other follows isNode
    exact (missing name isFound other follows isNode).resolve_right List.not_mem_nil
  | case2 found name pending isNew ih =>
    rw [walk, if_pos isNew]
    have stillMissing : ∀ known ∈ name :: found, ∀ other ∈ next known, other ∈ nodes →
        other ∈ name :: found ∨ other ∈ next name ++ pending := by
      intro known isKnown other follows isNode
      rcases List.mem_cons.mp isKnown with rfl | isFound
      · exact .inr (List.mem_append_left _ follows)
      · rcases missing known isFound other follows isNode with already | waits
        · exact .inl (List.mem_cons_of_mem _ already)
        · rcases List.mem_cons.mp waits with rfl | waits
          · exact .inl List.mem_cons_self
          · exact .inr (List.mem_append_right _ waits)
    obtain ⟨kept, reached, closed⟩ := ih stillMissing
    refine ⟨fun known isFound => kept (List.mem_cons_of_mem _ isFound), ?_, closed⟩
    intro other waits isNode
    rcases List.mem_cons.mp waits with rfl | waits
    · exact kept List.mem_cons_self
    · exact reached other (List.mem_append_right _ waits) isNode
  | case3 found name pending isOld ih =>
    rw [walk, if_neg isOld]
    have passedOver (other : String) (isNode : other ∈ nodes) (waits : other ∈ name :: pending) :
        other ∈ found ∨ other ∈ pending := by
      rcases List.mem_cons.mp waits with rfl | waits
      · exact .inl (Classical.not_not.mp fun isNew => isOld ⟨isNode, isNew⟩)
      · exact .inr waits
    have stillMissing : ∀ known ∈ found, ∀ other ∈ next known, other ∈ nodes →
        other ∈ found ∨ other ∈ pending := by
      intro known isFound other follows isNode
      exact (missing known isFound other follows isNode).elim .inl (passedOver other isNode)
    obtain ⟨kept, reached, closed⟩ := ih stillMissing
    refine ⟨kept, ?_, closed⟩
    intro other waits isNode
    exact (passedOver other isNode waits).elim (@kept other) fun waits => reached other waits isNode

/-- What can be reached from a node has the node and what follows each of its members. -/
theorem reachable_closed {start : String} (isNode : start ∈ nodes) :
    start ∈ reachable nodes next start ∧
      ∀ name ∈ reachable nodes next start, ∀ other ∈ next name, other ∈ nodes →
        other ∈ reachable nodes next start := by
  obtain ⟨_, reached, closed⟩ := walk_closed nodes next [] [start] (by simp)
  exact ⟨reached start List.mem_cons_self isNode, closed⟩

/-- What holds of the nodes that are found and pending, and is kept in following, holds of all that a walk finds. -/
theorem walk_keeps (holds : String → Prop)
    (keeps : ∀ name, holds name → ∀ other ∈ next name, other ∈ nodes → holds other) (found pending : List String)
    (already : ∀ name ∈ found, holds name) (waiting : ∀ name ∈ pending, name ∈ nodes → holds name) :
    ∀ name ∈ walk nodes next found pending, holds name := by
  induction found, pending using walk.induct nodes next with
  | case1 found =>
    rw [walk]
    exact already
  | case2 found name pending isNew ih =>
    rw [walk, if_pos isNew]
    have here := waiting name List.mem_cons_self isNew.1
    refine ih (List.forall_mem_cons.mpr ⟨here, already⟩) ?_
    intro other waits isNode
    rcases List.mem_append.mp waits with follows | waits
    · exact keeps name here other follows isNode
    · exact waiting other (List.mem_cons_of_mem _ waits) isNode
  | case3 found name pending isOld ih =>
    rw [walk, if_neg isOld]
    exact ih already fun other waits => waiting other (List.mem_cons_of_mem _ waits)

/-- What can be reached from a name is what paths through the nodes lead to. -/
theorem mem_reachable_iff {start other : String} :
    other ∈ reachable nodes next start ↔
      start ∈ nodes ∧ ReflTransGen (fun name follower => follower ∈ next name ∧ follower ∈ nodes) start other := by
  constructor
  · intro isFound
    refine walk_keeps nodes next (fun other => start ∈ nodes ∧ ReflTransGen _ start other) ?_ [] [start] nofun ?_
      other isFound
    · rintro name ⟨isNode, path⟩ follower follows within
      exact ⟨isNode, path.tail ⟨follows, within⟩⟩
    · intro name isStart isNode
      rw [List.mem_singleton.mp isStart] at isNode ⊢
      exact ⟨isNode, .refl⟩
  · rintro ⟨isNode, path⟩
    obtain ⟨reached, closed⟩ := reachable_closed nodes next isNode
    induction path with
    | refl => exact reached
    | tail _ step ih => exact closed _ ih _ step.1 step.2

end ClassSchema
