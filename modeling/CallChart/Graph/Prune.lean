import CallChart.Graph.Closure

/-! Pruning: deleting nodes that carry no meaning for a diagram. Deleting one node can leave others
without callers or without a paragraph to lead to, so passes are made until nothing is dead. -/

namespace CallChart

namespace Graph

/-- Whether some paragraph can be reached from an id by calls that pass through structural nodes
only. -/
def reachesNormal (graph : Graph) (id : String) : Bool :=
  let onward := fun node : Node => if node.kind.structural then graph.callees node.id else []
  (graph.closure onward (graph.callees id) []).any (fun other => graph.kind? other = some .normal)

/-- Whether a node carries no meaning: a paragraph that nothing calls, or a structural node that
nothing calls or that leads to no paragraph. -/
def dead (graph : Graph) (node : Node) : Bool :=
  match node.kind with
  | .start => false
  | .normal => graph.callers node.id = []
  | .condition | .conditionElse | .loop =>
    graph.callers node.id = [] || graph.callees node.id = [] || !graph.reachesNormal node.id

def doomed (graph : Graph) : List String := (graph.nodes.filter graph.dead).map Node.id

def prune (graph : Graph) : Graph :=
  if graph.doomed = [] then graph else (graph.without graph.doomed).prune
termination_by graph.nodes.length
decreasing_by
  next doomed =>
  obtain ⟨id, member⟩ := List.exists_mem_of_ne_nil _ doomed
  obtain ⟨node, inside, rfl⟩ := List.mem_map.1 member
  refine List.length_filter_lt_length_iff_exists.2 ⟨node, (List.mem_filter.1 inside).1, ?_⟩
  simp [member]

end Graph

end CallChart
