import CallChart.Ordered.Set
import CallChart.Graph.Error

/-! The call graph of a program made of paragraphs. A link says that one node transfers control to
another. Links are kept on both ends and may name ids that are not nodes, since a graph can be
built in any order. -/

namespace CallChart

/-- Nodes in the order of their addition, and for each id the ids that call it and that it calls.
An id has an entry on either side as soon as it is a node or a link names it there. -/
structure Graph where
  nodes : List Node := []
  callerSets : OrderedMap String (OrderedSet String) := ∅
  calleeSets : OrderedMap String (OrderedSet String) := ∅
deriving DecidableEq

namespace Graph

def ids (graph : Graph) : List String := graph.nodes.map Node.id

def node? (graph : Graph) (id : String) : Option Node :=
  graph.nodes.find? (fun node => node.id = id)

def kind? (graph : Graph) (id : String) : Option Kind :=
  (graph.node? id).map Node.kind

def contains (graph : Graph) (id : String) : Bool := (graph.node? id).isSome

/-- The ids that call the given one, in the order of their links. -/
def callers (graph : Graph) (id : String) : List String :=
  ((graph.callerSets.find? id).getD ∅).toList

/-- The ids that the given one calls, in the order of their links. -/
def callees (graph : Graph) (id : String) : List String :=
  ((graph.calleeSets.find? id).getD ∅).toList

def entry? (graph : Graph) : Option Node :=
  graph.nodes.find? (fun node => node.kind = .start)

def withEntry (sets : OrderedMap String (OrderedSet String)) (id : String) :
    OrderedMap String (OrderedSet String) :=
  sets.insert id ((sets.find? id).getD ∅)

def withMember (sets : OrderedMap String (OrderedSet String)) (id member : String) :
    OrderedMap String (OrderedSet String) :=
  sets.insert id (((sets.find? id).getD ∅).insert member)

def add (graph : Graph) (node : Node) : Except GraphError Graph :=
  if graph.contains node.id then .error (.duplicateNode node.id)
  else .ok {
    nodes := graph.nodes ++ [node]
    callerSets := withEntry graph.callerSets node.id
    calleeSets := withEntry graph.calleeSets node.id }

/-- Records that the caller transfers control to the callee. A repeated link changes nothing. -/
def link (graph : Graph) (caller callee : String) : Graph :=
  { graph with
    calleeSets := withMember graph.calleeSets caller callee
    callerSets := withMember graph.callerSets callee caller }

/-- Deletes ids: their nodes, their entries and every link that touches one of them. -/
def without (graph : Graph) (gone : List String) : Graph where
  nodes := graph.nodes.filter (fun node => node.id ∉ gone)
  callerSets := (graph.callerSets.filterKeys (· ∉ gone)).mapValues (·.filter (· ∉ gone))
  calleeSets := (graph.calleeSets.filterKeys (· ∉ gone)).mapValues (·.filter (· ∉ gone))

/-- Takes a member out of the sets of some ids. An id without an entry gets none. -/
def withoutMember (sets : OrderedMap String (OrderedSet String)) (ids : List String) (member : String) :
    OrderedMap String (OrderedSet String) :=
  ids.foldl (fun sets id =>
    match sets.find? id with
    | some set => sets.insert id (set.filter (· ≠ member))
    | none => sets) sets

/-- Removes one id: its node, its entries, and what the ids it is linked with say of it. Each side of the
links tells which sets of the other side to look into. -/
def remove (graph : Graph) (id : String) : Graph :=
  let callerSets := withoutMember graph.callerSets (graph.callees id) id
  let callers := ((callerSets.find? id).getD ∅).toList
  { nodes := graph.nodes.filter (fun node => node.id ≠ id)
    callerSets := callerSets.filterKeys (· ≠ id)
    calleeSets := withoutMember (graph.calleeSets.filterKeys (· ≠ id)) callers id }

/-- Equality that ignores the order of nodes, links and invocations. Entries count, also empty ones. -/
def same (first second : Graph) : Bool :=
  first.nodes.length == second.nodes.length &&
    first.nodes.all (fun node => (second.node? node.id).any node.same) &&
    first.callerSets.sameEntries OrderedSet.sameMembers second.callerSets &&
    first.calleeSets.sameEntries OrderedSet.sameMembers second.calleeSets

def unseen (graph : Graph) (seen : List String) : Nat :=
  graph.nodes.countP (fun node => node.id ∉ seen)

theorem node?_some {graph : Graph} {id : String} {node : Node} (found : graph.node? id = some node) :
    node ∈ graph.nodes ∧ node.id = id := by
  refine ⟨List.mem_of_find?_eq_some found, ?_⟩
  simpa using List.find?_some found

@[simp] theorem nodes_link (graph : Graph) (caller callee : String) :
    (graph.link caller callee).nodes = graph.nodes := rfl

theorem getD_find?_withMember (sets : OrderedMap String (OrderedSet String)) (id member other : String) :
    ((withMember sets id member).find? other).getD ∅ =
      if id = other then ((sets.find? id).getD ∅).insert member else (sets.find? other).getD ∅ := by
  rw [withMember, OrderedMap.find?_insert]
  split <;> rfl

theorem mem_callers_link {graph : Graph} {caller callee other id : String} :
    other ∈ (graph.link caller callee).callers id ↔
      other ∈ graph.callers id ∨ (other = caller ∧ id = callee) := by
  simp only [callers, link, getD_find?_withMember]
  split
  · next same => simp [same]
  · next different => simp [Ne.symm different]

theorem mem_callees_link {graph : Graph} {caller callee other id : String} :
    other ∈ (graph.link caller callee).callees id ↔
      other ∈ graph.callees id ∨ (other = callee ∧ id = caller) := by
  simp only [callees, link, getD_find?_withMember]
  split
  · next same => simp [same]
  · next different => simp [Ne.symm different]

/-- Seeing one more node leaves fewer unseen. -/
theorem unseen_cons_lt {graph : Graph} {seen : List String} {id : String} {node : Node}
    (found : graph.node? id = some node) (fresh : id ∉ seen) :
    graph.unseen (id :: seen) < graph.unseen seen := by
  obtain ⟨inside, named⟩ := node?_some found
  have step : ∀ nodes : List Node, node ∈ nodes →
      nodes.countP (fun other => other.id ∉ id :: seen) < nodes.countP (fun other => other.id ∉ seen) := by
    intro nodes member
    obtain ⟨before, after, rfl⟩ := List.append_of_mem member
    have weaker : ∀ rest : List Node,
        rest.countP (fun other => other.id ∉ id :: seen) ≤ rest.countP (fun other => other.id ∉ seen) := by
      intro rest
      apply List.countP_mono_left
      intro other _
      simp only [List.mem_cons, not_or, decide_eq_true_eq]
      exact And.right
    have first := weaker before
    have last := weaker after
    have gone : decide (node.id ∉ id :: seen) = false := by simp [named]
    have counted : decide (node.id ∉ seen) = true := by simp [named, fresh]
    simp only [List.countP_append, List.countP_cons, gone, counted, if_true, Bool.false_eq_true, if_false]
    omega
  exact step _ inside

end Graph

end CallChart
