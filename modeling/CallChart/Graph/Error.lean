import CallChart.Graph.Node

/-! What can be wrong with a call graph, and how it is worded. -/

namespace CallChart

inductive GraphError where
  | noStart
  | unknownCallee (id : String)
  | unknownCaller (id : String)
  | duplicateNode (id : String)
  | severalStarts (first second : String)
  | calledStart (id : String)
  /-- A link is recorded on one of its ends only. -/
  | oneSidedLink (caller callee : String)
  | reversedLines (id : String) (first last : Line)
deriving DecidableEq

namespace GraphError

def quoted (id : String) : String := "`" ++ id ++ "`"

def message : GraphError → String
  | noStart => "graph has no start node"
  | unknownCallee id => "callee " ++ quoted id ++ " has no corresponding node"
  | unknownCaller id => "caller " ++ quoted id ++ " has no corresponding node"
  | duplicateNode id => "node " ++ quoted id ++ " is defined more than once"
  | severalStarts first second =>
    "graph has more than one start node (" ++ quoted first ++ " and " ++ quoted second ++ ")"
  | calledStart id => "start node " ++ quoted id ++ " must not have callers"
  | oneSidedLink caller callee =>
    "link " ++ quoted caller ++ " -> " ++ quoted callee ++ " is not recorded on both ends"
  | reversedLines id first last =>
    "node " ++ quoted id ++ " has start line " ++ first.toNat.repr ++ " after end line " ++ last.toNat.repr

end GraphError

end CallChart
