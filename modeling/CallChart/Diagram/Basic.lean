import CallChart.Graph.Prune
import CallChart.Narrative.Walk
import CallChart.Diagram.Edge

/-! The diagram of a call graph: the narrative of the pruned graph, with its edges. -/

namespace CallChart

structure Diagram where
  narrative : Narrative
  edges : List Edge
deriving DecidableEq

def Graph.diagram (graph : Graph) : Except GraphError Diagram :=
  graph.prune.narrate.map fun narrative => { narrative, edges := narrative.edges }

end CallChart
