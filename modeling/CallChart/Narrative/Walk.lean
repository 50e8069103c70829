import CallChart.Graph.Closure
import CallChart.Narrative.Basic

/-! The walk that tells a call graph. It follows calls depth first from the start node. A paragraph
is told once for each node that calls it; a start node or a loop is told once altogether; a call
back into a node that is still being told is repeated once and not followed further.

Telling a node leaves ends open, from which whatever comes next is linked. Since a node on the
chain of open calls is never entered again, each step of the recursion leaves fewer nodes off the
chain. -/

namespace CallChart

namespace Graph

/-- The ids of the nodes that may be told more than once: duplicable nodes with several callers, and
the duplicable nodes that can be reached from them through duplicable nodes. -/
def shared (graph : Graph) : List String :=
  let duplicable := fun id => (graph.kind? id).any Kind.duplicable
  let several := graph.nodes.filter fun node =>
    node.kind.duplicable && 1 < (graph.callers node.id).length
  graph.closure (fun node => (graph.callees node.id).filter duplicable) (several.map Node.id) []

end Graph

structure Visit where
  entry : String
  /-- The open ends, unless the callee had been told for this caller before. -/
  ends : Option (List String)
deriving DecidableEq

def Visit.leaf (id : String) : Visit := ⟨id, some [id]⟩

structure Walk where
  told : Narrative := {}
  /-- The occurrence made for each pair of a callee and its caller. -/
  reached : OrderedMap (String × String) String := ∅
deriving DecidableEq

namespace Walk

/-- The id for the next occurrence of a node: the node's own where the node is told once only, else
the own id with a running number. -/
def nextId (shared : List String) (walk : Walk) (node : Node) : String :=
  if !node.kind.duplicable || (!walk.told.contains node.id && node.id ∉ shared) then node.id
  else node.id ++ "_" ++ (walk.told.renamed node.id + 1).repr

def tell (walk : Walk) (id : String) (node : Node) : Walk :=
  { walk with told := walk.told.push { id, node } }

/-- Remembers the occurrence made for a callee and its caller. A node that is told once only, or that
nothing calls, needs no such note. -/
def note (walk : Walk) (node : Node) (caller : Option String) (id : String) : Walk :=
  match caller with
  | some caller =>
    if node.kind.duplicable then { walk with reached := walk.reached.insert (node.id, caller) id } else walk
  | none => walk

end Walk

/-- The open ends while the callees of a node are told. -/
structure Ends where
  main : List String
  ran : Bool := false
  branches : List String := []
deriving DecidableEq

/-- All open ends: those of the sequence, unless there are only branches, and then those of the
branches that are not among them. -/
def Ends.all (ends : Ends) : List String :=
  ends.branches.foldl (fun all branch => if branch ∈ all then all else all ++ [branch])
    (if ends.ran || ends.branches.isEmpty then ends.main else [])

namespace Graph

def branches (graph : Graph) (parent : Node) (callee : String) : Bool :=
  parent.kind = .condition && graph.kind? callee = some .conditionElse

/-- Whether the ends of a callee stay closed: a condition with nothing after it in the sequence has
nothing to rejoin, unless the sequence is the body of a loop. -/
def closes (graph : Graph) (parent : Node) (callee : String) (later : List String) : Bool :=
  graph.kind? callee = some .condition && parent.kind ≠ .loop &&
    later.all (fun other => parent.kind = .condition && (graph.kind? other).all (· = .conditionElse))

/-- Tells callees in order. Each is linked from the ends of the one before it, and an ELSE branch from
the condition itself. -/
def tellCallees (graph : Graph) (visit : String → Walk → Except GraphError (Visit × Walk))
    (parent : Node) (id : String) : List String → Ends → Walk → Except GraphError (Ends × Walk)
  | [], ends, walk => .ok (ends, walk)
  | callee :: later, ends, walk =>
    match visit callee walk with
    | .error fault => .error fault
    | .ok (told, walk) =>
      if graph.branches parent callee then
        graph.tellCallees visit parent id later
          { ends with branches := ends.branches ++ told.ends.getD [] }
          { walk with told := walk.told.link id told.entry }
      else
        graph.tellCallees visit parent id later
          { ends with
            ran := true
            main := if graph.closes parent callee later then ends.main else told.ends.getD ends.main }
          { walk with told := walk.told.linkAll ends.main told.entry }

/-- What remains to be done once the callees of a node are told: a loop returns to its header, which is
its only end. -/
def finish (node : Node) (id : String) (callees : List String) (ends : Ends) (walk : Walk) : Visit × Walk :=
  if node.kind = .loop then
    (.leaf id, if callees = [] then walk else { walk with told := walk.told.linkAll ends.all id })
  else
    (⟨id, some ends.all⟩, walk)

/-- Tells a node and what it calls, given the chain of open calls, innermost first. -/
def visit (graph : Graph) (shared chain : List String) (id : String) (walk : Walk) :
    Except GraphError (Visit × Walk) :=
  match _found : graph.node? id with
  | none => .error (.unknownCallee id)
  | some node =>
    let name := walk.nextId shared node
    if !node.kind.duplicable && walk.told.tells id then .ok (.leaf id, walk)
    else if _open : id ∈ chain then .ok (.leaf name, walk.tell name node)
    else
      match chain.head?.bind (fun caller => walk.reached.find? (id, caller)) with
      | some entry => .ok (⟨entry, none⟩, walk)
      | none =>
        let begun := (walk.tell name node).note node chain.head? name
        let callees := graph.callees id
        match graph.tellCallees (fun callee walk => graph.visit shared (id :: chain) callee walk)
            node name callees { main := [name] } begun with
        | .error fault => .error fault
        | .ok (ends, walk) => .ok (finish node name callees ends walk)
termination_by graph.unseen chain
decreasing_by exact unseen_cons_lt _found _open

def narrate (graph : Graph) : Except GraphError Narrative :=
  match graph.entry? with
  | none => .error .noStart
  | some entry => (graph.visit graph.shared [] entry.id {}).map (fun result => result.2.told)

end Graph

end CallChart
