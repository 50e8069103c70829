import CallChart.Graph.Basic

/-! Everything that can be reached from some ids by steps that depend on the node one stands on. -/

namespace CallChart

namespace Graph

/-- The ids reached from `todo` by repeating `step`, together with those seen already. An id that is
not a node is reached but leads nowhere. -/
def closure (graph : Graph) (step : Node → List String) (todo seen : List String) : List String :=
  match todo with
  | [] => seen
  | id :: rest =>
    if _known : id ∈ seen then graph.closure step rest seen
    else
      match _found : graph.node? id with
      | none => graph.closure step rest (id :: seen)
      | some node => graph.closure step (step node ++ rest) (id :: seen)
termination_by (graph.unseen seen, todo.length)
decreasing_by
  · exact Prod.Lex.right _ (by simp)
  · have fewer : graph.unseen (id :: seen) ≤ graph.unseen seen := by
      apply List.countP_mono_left
      intro node _
      simp only [List.mem_cons, not_or, decide_eq_true_eq]
      exact And.right
    rcases Nat.lt_or_eq_of_le fewer with less | equal
    · exact Prod.Lex.left _ _ less
    · rw [equal]
      exact Prod.Lex.right _ (by simp)
  · exact Prod.Lex.left _ _ (unseen_cons_lt _found _known)

end Graph

end CallChart
