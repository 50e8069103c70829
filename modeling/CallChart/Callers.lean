import CallChart.Graph.Basic
import CallChart.Ordered.Distinct

/-! Who calls the paragraph around a line of the program text. Loops do not count as callers: the
node that enters the loop stands for them. -/

namespace CallChart

structure Caller where
  node : Node
  line : Line
deriving DecidableEq

structure CallerList where
  target : Node
  callers : List Caller
deriving DecidableEq

namespace Graph

def extent (node : Node) : Line := node.lastLine - node.firstLine

/-- The first of the nodes with the least extent. -/
def innermost? : List Node → Option Node
  | [] => none
  | first :: rest =>
    match innermost? rest with
    | none => some first
    | some other => if extent other < extent first then some other else some first

/-- Paragraphs and the start node, whose text includes the line. -/
def enclosing (graph : Graph) (line : Line) : List Node :=
  graph.nodes.filter fun node => (node.kind = .normal || node.kind = .start) && node.encloses line

/-- The node that stands for a caller: the first that is not a loop, when loops are replaced by their
first caller. -/
def standIn? (graph : Graph) (passed : List String) (id : String) : Option Node :=
  match _found : graph.node? id with
  | none => none
  | some node =>
    if node.kind ≠ .loop then some node
    else if _known : id ∈ passed then none
    else
      match (graph.callers id).head? with
      | none => none
      | some caller => graph.standIn? (id :: passed) caller
termination_by graph.unseen passed
decreasing_by exact unseen_cons_lt _found _known

section

variable {graph : Graph} {passed : List String} {id : String}

theorem standIn?_none (missing : graph.node? id = none) : graph.standIn? passed id = none := by
  rw [standIn?]
  split
  · rfl
  · next node found => cases missing.symm.trans found

theorem standIn?_some {node : Node} (found : graph.node? id = some node) : graph.standIn? passed id =
    if node.kind ≠ .loop then some node
    else if id ∈ passed then none
    else (graph.callers id).head?.bind (graph.standIn? (id :: passed)) := by
  rw [standIn?]
  split
  · next missing => cases missing.symm.trans found
  · next other here =>
    cases here.symm.trans found
    split
    · rfl
    · split
      · rfl
      · cases (graph.callers id).head? <;> rfl

end

def invocationLine (target : Node) (callerId : String) (standIn : Node) : Line :=
  ((target.invocations.find? callerId).or (target.invocations.find? standIn.id)).getD standIn.firstLine

/-- The callers of a node, each listed for the first of its links. -/
def callersOf (graph : Graph) (target : Node) : List Caller :=
  let found := (graph.callers target.id).filterMap fun id => (graph.standIn? [] id).map (id, ·)
  (distinctOn (fun pair : String × Node => pair.2.id) [] found).map fun (id, standIn) =>
    { node := standIn, line := invocationLine target id standIn }

/-- The innermost paragraph around a line, with its callers. -/
def callersAt? (graph : Graph) (line : Line) : Option CallerList :=
  (innermost? (graph.enclosing line)).map fun target =>
    { target, callers := graph.callersOf target }

end Graph

end CallChart
