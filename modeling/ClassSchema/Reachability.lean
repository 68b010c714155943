/-! # Reachability

A finite graph is given by its nodes and by the names that follow each of them. A walk from some names
finds every node that can be reached from them; names that are no nodes are passed over.
-/

namespace ClassSchema

/-- The nodes that are not found yet. -/
def unfound (nodes found : List String) : List String :=
  nodes.filter (· ∉ found)

theorem unfound_cons_le (nodes found : List String) (name : String) :
    (unfound nodes (name :: found)).length ≤ (unfound nodes found).length := by
  simp only [unfound, ← List.countP_eq_length_filter]
  refine List.countP_mono_left fun node _ kept => ?_
  simp only [decide_eq_true_eq, List.mem_cons, not_or] at kept ⊢
  exact kept.2

/-- Finding a node leaves fewer nodes to be found. -/
theorem unfound_cons_lt {nodes found : List String} {name : String} (isNode : name ∈ nodes)
    (isNew : name ∉ found) : (unfound nodes (name :: found)).length < (unfound nodes found).length := by
  induction nodes with
  | nil => simp at isNode
  | cons node rest ih =>
    by_cases same : node = name
    · subst same
      have le := unfound_cons_le rest found node
      simp only [unfound, List.filter_cons, List.mem_cons, true_or, not_true_eq_false, decide_false,
        isNew, not_false_eq_true, decide_true, if_true, List.length_cons] at le ⊢
      exact Nat.lt_succ_of_le le
    · have less := ih ((List.mem_cons.mp isNode).resolve_left fun equal => same equal.symm)
      by_cases present : node ∈ found <;>
        simp only [unfound, List.filter_cons, List.mem_cons, same, present, or_true, or_false,
          not_true_eq_false, not_false_eq_true, decide_true, decide_false, if_true, List.length_cons,
          Nat.add_lt_add_iff_right] at less ⊢ <;>
        exact less

/-- The nodes found so far with every node that can be reached from the pending names. -/
def walk (nodes : List String) (next : String → List String) (found : List String) :
    List String → List String
  | [] => found
  | name :: pending =>
    if name ∈ nodes ∧ name ∉ found then
      walk nodes next (name :: found) (next name ++ pending)
    else walk nodes next found pending
termination_by pending => ((unfound nodes found).length, pending.length)
decreasing_by
  · rename_i isNew
    exact Prod.Lex.left _ _ (unfound_cons_lt isNew.1 isNew.2)
  · exact Prod.Lex.right _ (Nat.lt_succ_self _)

/-- The nodes that can be reached from a name, itself included. -/
def reachable (nodes : List String) (next : String → List String) (start : String) : List String :=
  walk nodes next [] [start]

end ClassSchema
