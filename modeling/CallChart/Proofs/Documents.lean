import CallChart.Proofs.Building
import CallChart.Wire.GraphDoc

/-! The graphs that documents describe. Reading a document adds its nodes and then the links of their
callees, so what is read is built, and it has passed the check. -/

namespace CallChart

def NodeDoc.brief (id : String) (kind : Kind) (callers callees : List String) : NodeDoc :=
  { node := { id, label := id, kind, firstLine := 1, lastLine := 1 }, callers, callees }

namespace GraphDoc

variable {graph next : Graph}

theorem built_addNodes {docs : List NodeDoc} (built : graph.Built) (added : addNodes graph docs = .ok next) :
    next.Built := by
  induction docs generalizing graph with
  | nil =>
    cases added
    exact built
  | cons doc rest ih =>
    rw [addNodes, List.foldlM_cons] at added
    cases step : graph.add doc.node with
    | error fault =>
      rw [step] at added
      cases added
    | ok middle =>
      rw [step] at added
      exact ih (.add built step) added

private theorem built_linkEach {caller : String} {callees : List String} (built : graph.Built) :
    (callees.foldl (fun graph callee => graph.link caller callee) graph).Built := by
  induction callees generalizing graph with
  | nil => exact built
  | cons callee rest ih => exact ih (.link built caller callee)

theorem built_linkCallees {docs : List NodeDoc} (built : graph.Built) : (linkCallees graph docs).Built := by
  induction docs generalizing graph with
  | nil => exact built
  | cons doc rest ih => exact ih (built_linkEach built)

/-- A graph that was read is built and checked. -/
theorem built_toGraph {doc : GraphDoc} (read : doc.toGraph = .ok graph) : graph.Built ∧ graph.check = .ok () := by
  unfold toGraph at read
  cases added : addNodes {} doc.nodes with
  | error fault =>
    rw [added] at read
    cases read
  | ok base =>
    rw [added] at read
    have built : (linkCallees base doc.nodes).Built := built_linkCallees (built_addNodes .empty added)
    cases checked : (linkCallees base doc.nodes).check with
    | error fault => simp [checked, bind, Except.bind] at read
    | ok =>
      simp only [bind, Except.bind, checked] at read
      split at read
      · cases read
        exact ⟨built, checked⟩
      · cases read

end GraphDoc

end CallChart
