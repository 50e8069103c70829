import CallChart.Graph.Basic

/-! The rules that a complete call graph keeps: text ranges run forward, there is one start node and
nothing calls it, and every id in a link is a node. -/

namespace CallChart

namespace Graph

def lineFaults (node : Node) : List GraphError :=
  if node.lastLine < node.firstLine then [.reversedLines node.id node.firstLine node.lastLine] else []

/-- The fault of a start node, given the start node before it, if any. -/
def startFaults (graph : Graph) (earlier : Option String) (node : Node) : List GraphError :=
  match node.kind, earlier with
  | .start, some first => [.severalStarts first node.id]
  | .start, none => if graph.callers node.id = [] then [] else [.calledStart node.id]
  | _, _ => []

def nodeFaults (graph : Graph) : Option String → List Node → List GraphError
  | none, [] => [.noStart]
  | some _, [] => []
  | earlier, node :: rest =>
    lineFaults node ++ graph.startFaults earlier node ++
      graph.nodeFaults (earlier <|> if node.kind = .start then some node.id else none) rest

/-- The faults of a side of the links: an entry whose id is not a node, then its members that are
not nodes. -/
def linkFaults (graph : Graph) (sets : OrderedMap String (OrderedSet String))
    (unknownId unknownMember : String → GraphError) : List GraphError :=
  sets.entries.flatMap fun entry =>
    (if graph.contains entry.1 then [] else [unknownId entry.1]) ++
      (entry.2.toList.filter (fun member => !graph.contains member)).map unknownMember

/-- All faults of a graph, in the order in which they are looked for. -/
def faults (graph : Graph) : List GraphError :=
  graph.nodeFaults none graph.nodes ++
    graph.linkFaults graph.calleeSets .unknownCaller .unknownCallee ++
    graph.linkFaults graph.callerSets .unknownCallee .unknownCaller

def check (graph : Graph) : Except GraphError Unit :=
  match graph.faults with
  | [] => .ok ()
  | first :: _ => .error first

end Graph

end CallChart
