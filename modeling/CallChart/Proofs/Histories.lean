import Mathlib.Data.List.Induction
import CallChart.Proofs.Building

/-! Graphs as the outcome of their histories. A history is any sequence of additions, links and removals, some of which
may come to nothing. Whatever the history, both sides of the links agree, and a removal takes away one id with its
links and nothing else. -/

namespace CallChart

inductive Edit where
  | add (node : Node)
  | link (caller callee : String)
  | remove (id : String)
deriving DecidableEq

/-- The addition of a node of one line, labelled by its id. -/
def Edit.brief (id : String) (kind : Kind) : Edit := .add { id, label := id, kind, firstLine := 1, lastLine := 1 }

namespace Graph

/-- Makes a change. A node whose id is taken is not added. -/
def edit (graph : Graph) : Edit → Graph
  | .add node =>
    match graph.add node with
    | .ok larger => larger
    | .error _ => graph
  | .link caller callee => graph.link caller callee
  | .remove id => graph.remove id

def edited (history : List Edit) : Graph := history.foldl edit {}

/-- One id is gone, with its entries and with every mention of it, and all else is there in the same order. -/
structure Deletes (id : String) (graph smaller : Graph) : Prop where
  nodes : smaller.nodes = graph.nodes.filter (fun node => node.id ≠ id)
  callers : ∀ other, smaller.callers other = if other = id then [] else (graph.callers other).filter (· ≠ id)
  callees : ∀ other, smaller.callees other = if other = id then [] else (graph.callees other).filter (· ≠ id)
  callerKeys : smaller.callerSets.keys = graph.callerSets.keys.filter (· ≠ id)
  calleeKeys : smaller.calleeSets.keys = graph.calleeSets.keys.filter (· ≠ id)

variable {graph : Graph}

theorem edited_concat (history : List Edit) (change : Edit) :
    edited (history ++ [change]) = (edited history).edit change := by
  rw [edited, List.foldl_append]
  rfl

theorem Built.edit (built : graph.Built) (change : Edit) : (graph.edit change).Built := by
  cases change with
  | add node =>
    simp only [Graph.edit]
    split
    · next larger added => exact .add built added
    · exact built
  | link caller callee => exact .link built caller callee
  | remove id => exact .remove built id

theorem built_edited (history : List Edit) : (edited history).Built := by
  induction history using List.reverseRecOn with
  | nil => exact .empty
  | append_singleton history change ih =>
    rw [edited_concat]
    exact ih.edit change

theorem Consistent.deletes (consistent : graph.Consistent) (id : String) : Deletes id graph (graph.remove id) := by
  rw [consistent.remove_eq]
  constructor
  · simp only [Graph.without, List.mem_singleton, ne_eq]
  · intro other
    rw [callers_without]
    simp only [List.mem_singleton, ne_eq]
  · intro other
    rw [callees_without]
    simp only [List.mem_singleton, ne_eq]
  · simp only [Graph.without, OrderedMap.keys_mapValues, OrderedMap.keys_filterKeys, List.mem_singleton, ne_eq]
  · simp only [Graph.without, OrderedMap.keys_mapValues, OrderedMap.keys_filterKeys, List.mem_singleton, ne_eq]

/-- Whatever the history of a graph, its links are recorded on both ends, its nodes are found under their own ids and
have entries on both sides, and a removal deletes one id and nothing else. -/
theorem edited_mutual (history : List Edit) :
    (∀ caller callee, callee ∈ (edited history).callees caller ↔ caller ∈ (edited history).callers callee) ∧
    (∀ id node, (edited history).node? id = some node ↔ node ∈ (edited history).nodes ∧ node.id = id) ∧
    (∀ node ∈ (edited history).nodes,
      node.id ∈ (edited history).callerSets.keys ∧ node.id ∈ (edited history).calleeSets.keys) ∧
    ∀ id, Deletes id (edited history) ((edited history).remove id) := by
  have built := built_edited history
  refine ⟨built.consistent.agree, ?_, ?_, built.consistent.deletes⟩
  · intro id node
    constructor
    · exact node?_some
    · intro stored
      obtain ⟨member, named⟩ := stored
      rw [← named]
      exact node?_of_mem built.consistent.distinct member
  · intro node member
    exact built.mem_keys (List.mem_map_of_mem member)

end Graph

end CallChart
