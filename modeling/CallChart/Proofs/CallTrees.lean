import CallChart.Proofs.Multiplicity

/-! Call trees and the flow through them. Where no two nodes call the same one, the calls behind a node are a tree, and
the flow through the tree is put together from the flows through its branches: each of them is entered
by one node, has links of its own, and leaves ends from which whatever comes next is linked. -/

namespace CallChart

inductive CallTree where
  | call (node : Node) (callees : List CallTree)

namespace CallTree

variable {α : Type}

def node : CallTree → Node
  | .call node _ => node

mutual
def fold (join : Node → List α → α) : CallTree → α
  | .call node callees => join node (foldEach join callees)
def foldEach (join : Node → List α → α) : List CallTree → List α
  | [] => []
  | tree :: later => fold join tree :: foldEach join later
end

theorem foldEach_eq_map {join : Node → List α → α} (trees : List CallTree) :
    foldEach join trees = trees.map (fold join) := by
  induction trees with
  | nil => rfl
  | cons tree later ih => rw [foldEach, ih, List.map_cons]

def nodes (tree : CallTree) : List Node := tree.fold fun node below => node :: below.flatten

theorem nodes_call (node : Node) (callees : List CallTree) :
    (call node callees).nodes = node :: callees.flatMap nodes := by
  rw [nodes, fold, foldEach_eq_map]
  rfl

end CallTree

/-- A stretch of flow: the node by which it is entered, its links, and the ends that it leaves. -/
structure Passage where
  node : Node
  links : List (String × String)
  ends : List String

namespace Passage

/-- The ends after a callee. A condition with nothing after it leaves the ends as they were, unless what
it is part of runs again. -/
def following (again : Bool) (ends : List String) (callee : Passage) (later : List Passage) : List String :=
  if callee.node.kind = .condition && !again && later.isEmpty then ends else callee.ends

/-- The links between callees that run one after another, the first of them from the given ends. -/
def chainLinks (again : Bool) (ends : List String) : List Passage → List (String × String)
  | [] => []
  | callee :: later =>
    ends.map (fun source => (source, callee.node.id)) ++ chainLinks again (callee.following again ends later) later

def chainEnds (again : Bool) (ends : List String) : List Passage → List String
  | [] => ends
  | callee :: later => chainEnds again (callee.following again ends later) later

/-- The flow through a node, given the flows through its callees. A loop runs its callees and returns. A condition
runs its callees or one of its ELSE branches. Any other node runs its callees. -/
def around (node : Node) (callees : List Passage) : Passage :=
  match node.kind with
  | .start | .normal | .conditionElse =>
    { node
      links := callees.flatMap links ++ chainLinks false [node.id] callees
      ends := chainEnds false [node.id] callees }
  | .condition =>
    let run := callees.filter fun callee => callee.node.kind ≠ .conditionElse
    let branches := callees.filter fun callee => callee.node.kind = .conditionElse
    { node
      links := callees.flatMap links ++ chainLinks false [node.id] run ++
        branches.map fun branch => (node.id, branch.node.id)
      ends := (if run.isEmpty && !branches.isEmpty then [] else chainEnds false [node.id] run) ++
        branches.flatMap ends }
  | .loop =>
    { node
      links := callees.flatMap links ++ chainLinks true [node.id] callees ++
        if callees.isEmpty then [] else (chainEnds true [node.id] callees).map fun source => (source, node.id)
      ends := [node.id] }

def branches (node : Node) (callee : Passage) : Bool :=
  node.kind = .condition && callee.node.kind = .conditionElse

def calleeLinks (node : Node) (ends : List String) (callees : List Passage) : List (String × String) :=
  callees.flatMap links ++
    (chainLinks (node.kind = .loop) ends (callees.filter fun callee => !branches node callee) ++
      (callees.filter (branches node)).map fun callee => (node.id, callee.node.id))

section Around

variable {node : Node} {callees : List Passage} {again : Bool} {ends : List String}

@[simp] theorem node_around : (around node callees).node = node := by
  unfold around
  split <;> rfl

theorem following_eq_or (again : Bool) (ends : List String) (callee : Passage) (later : List Passage) :
    callee.following again ends later = ends ∨ callee.following again ends later = callee.ends := by
  unfold following
  split
  · exact Or.inl rfl
  · exact Or.inr rfl

theorem mem_chainEnds {id : String} (member : id ∈ chainEnds again ends callees) :
    id ∈ ends ∨ ∃ callee ∈ callees, id ∈ callee.ends := by
  induction callees generalizing ends with
  | nil => exact Or.inl member
  | cons callee later ih =>
    rcases ih member with here | ⟨other, listed, inside⟩
    · rcases following_eq_or again ends callee later with kept | passed
      · exact Or.inl (kept ▸ here)
      · exact Or.inr ⟨callee, List.mem_cons_self, passed ▸ here⟩
    · exact Or.inr ⟨other, List.mem_cons_of_mem _ listed, inside⟩

theorem chainEnds_ne_nil (some : ends ≠ []) (each : ∀ callee ∈ callees, callee.ends ≠ []) :
    chainEnds again ends callees ≠ [] := by
  induction callees generalizing ends with
  | nil => exact some
  | cons callee later ih =>
    refine ih ?_ fun other listed => each other (List.mem_cons_of_mem _ listed)
    rcases following_eq_or again ends callee later with kept | passed
    · rw [kept]
      exact some
    · rw [passed]
      exact each callee List.mem_cons_self

theorem mem_calleeLinks_branch {callee : Passage} (branch : branches node callee = true) {link : String × String} :
    link ∈ calleeLinks node ends (callee :: callees) ↔
      link ∈ callee.links ++ [(node.id, callee.node.id)] ++ calleeLinks node ends callees := by
  rw [calleeLinks, calleeLinks, List.flatMap_cons, List.filter_cons_of_neg (by simp [branch]),
    List.filter_cons_of_pos branch, List.map_cons]
  grind

theorem mem_calleeLinks_run {callee : Passage} (run : branches node callee = false) {link : String × String} :
    link ∈ calleeLinks node ends (callee :: callees) ↔
      link ∈ callee.links ++ ends.map (fun source => (source, callee.node.id)) ++
        calleeLinks node (callee.following (node.kind = .loop) ends (callees.filter fun callee => !branches node callee))
          callees := by
  rw [calleeLinks, calleeLinks, List.flatMap_cons, List.filter_cons_of_pos (by simp [run]),
    List.filter_cons_of_neg (by simp [run]), chainLinks]
  grind

/-- The links of a node's flow, for nodes of every kind alike. -/
theorem mem_links_around {link : String × String} :
    link ∈ (around node callees).links ↔
      link ∈ calleeLinks node [node.id] callees ∨
        (node.kind = .loop ∧ callees ≠ [] ∧ link ∈ (chainEnds true [node.id] callees).map fun source => (source, node.id)) := by
  unfold around calleeLinks branches
  cases kind : node.kind with
  | start | normal | conditionElse => simp
  | condition => simp
  | loop => cases callees <;> simp [eq_comm, or_assoc]

/-- The ends of a node's flow, for all nodes but loops alike. -/
theorem mem_ends_around (other : node.kind ≠ .loop) {id : String} :
    id ∈ (around node callees).ends ↔
      (id ∈ chainEnds false [node.id] (callees.filter fun callee => !branches node callee) ∧
        (callees.filter (fun callee => !branches node callee) ≠ [] ∨ callees.filter (branches node) = [])) ∨
      id ∈ (callees.filter (branches node)).flatMap Passage.ends := by
  unfold around branches
  cases kind : node.kind with
  | start | normal | conditionElse => simp
  | condition =>
    simp only [decide_true, Bool.true_and, decide_not, List.mem_append]
    generalize callees.filter (fun callee => !decide (callee.node.kind = .conditionElse)) = run
    generalize callees.filter (fun callee => decide (callee.node.kind = .conditionElse)) = elses
    cases run <;> cases elses <;> simp
  | loop => exact absurd kind other

theorem ends_around_loop (kind : node.kind = .loop) : (around node callees).ends = [node.id] := by
  simp [around, kind]

theorem of_mem_ends_around {id : String} (member : id ∈ (around node callees).ends) :
    id = node.id ∨ ∃ callee ∈ callees, id ∈ callee.ends := by
  by_cases kind : node.kind = .loop
  · rw [ends_around_loop kind] at member
    exact Or.inl (List.mem_singleton.1 member)
  · rcases (mem_ends_around kind).1 member with ⟨run, _⟩ | branch
    · rcases mem_chainEnds run with own | ⟨callee, listed, inside⟩
      · exact Or.inl (List.mem_singleton.1 own)
      · exact Or.inr ⟨callee, List.mem_of_mem_filter listed, inside⟩
    · obtain ⟨callee, listed, inside⟩ := List.mem_flatMap.1 branch
      exact Or.inr ⟨callee, List.mem_of_mem_filter listed, inside⟩

theorem ends_around_ne_nil (each : ∀ callee ∈ callees, callee.ends ≠ []) : (around node callees).ends ≠ [] := by
  by_cases kind : node.kind = .loop
  · rw [ends_around_loop kind]
    exact List.cons_ne_nil _ _
  · by_cases none : callees.filter (branches node) = []
    · have some : chainEnds false [node.id] (callees.filter fun callee => !branches node callee) ≠ [] :=
        chainEnds_ne_nil (List.cons_ne_nil _ _) fun callee listed => each callee (List.mem_of_mem_filter listed)
      obtain ⟨id, member⟩ := List.exists_mem_of_ne_nil _ some
      exact List.ne_nil_of_mem ((mem_ends_around kind).2 (Or.inl ⟨member, Or.inr none⟩))
    · obtain ⟨branch, listed⟩ := List.exists_mem_of_ne_nil _ none
      obtain ⟨id, member⟩ := List.exists_mem_of_ne_nil _ (each branch (List.mem_of_mem_filter listed))
      exact List.ne_nil_of_mem ((mem_ends_around kind).2 (Or.inr (List.mem_flatMap.2 ⟨branch, listed, member⟩)))

end Around

end Passage

namespace CallTree

def passage (tree : CallTree) : Passage := tree.fold .around

theorem passage_call (node : Node) (callees : List CallTree) :
    (call node callees).passage = .around node (callees.map passage) := by
  rw [passage, fold, foldEach_eq_map]
  rfl

@[simp] theorem node_passage (tree : CallTree) : tree.passage.node = tree.node := by
  cases tree with
  | call node callees =>
    rw [passage_call, Passage.node_around]
    rfl

end CallTree

namespace Graph

open Relation

/-- A tree holds the calls of a graph behind the node at its root. -/
inductive Unfolds (graph : Graph) : CallTree → Prop where
  | call {node : Node} {callees : List CallTree} (found : graph.node? node.id = some node)
      (listed : graph.callees node.id = callees.map fun tree => tree.node.id)
      (below : ∀ tree ∈ callees, graph.Unfolds tree) : graph.Unfolds (.call node callees)

variable {graph : Graph} {tree : CallTree} {start : String}

namespace Unfolds

theorem found (unfolds : graph.Unfolds tree) : graph.node? tree.node.id = some tree.node := by
  cases unfolds with
  | call found listed below => exact found

private theorem eq_of_roots {callees others : List CallTree}
    (roots : callees.map (fun tree => tree.node.id) = others.map fun tree => tree.node.id)
    (each : ∀ tree ∈ callees, ∀ other ∈ others, tree.node.id = other.node.id → tree = other) : callees = others := by
  induction callees generalizing others with
  | nil => exact (List.map_eq_nil_iff.1 roots.symm).symm
  | cons callee later ih =>
    obtain ⟨next, rest, rfl, head, tail⟩ := List.map_eq_cons_iff.1 roots.symm
    rw [each callee List.mem_cons_self next List.mem_cons_self head.symm]
    congr 1
    exact ih tail.symm fun tree inside other there =>
      each tree (List.mem_cons_of_mem _ inside) other (List.mem_cons_of_mem _ there)

theorem unique {other : CallTree} (first : graph.Unfolds tree) (second : graph.Unfolds other)
    (same : tree.node.id = other.node.id) : tree = other := by
  induction first generalizing other with
  | @call node callees found listed _ ih =>
    cases second with
    | @call twin others located again below =>
      obtain rfl : node = twin := Option.some.inj (found.symm.trans ((congrArg graph.node? same).trans located))
      rw [eq_of_roots (listed.symm.trans again) fun tree inside other there => ih tree inside (below other there)]

theorem ends_ne_nil (unfolds : graph.Unfolds tree) : tree.passage.ends ≠ [] := by
  induction unfolds with
  | call found listed below ih =>
    rw [CallTree.passage_call]
    exact Passage.ends_around_ne_nil (List.forall_mem_map.2 ih)

/-- An end behind a node is the node itself, or an end behind one of its callees. -/
theorem exists_node {node : Node} {callees : List CallTree} {id : String}
    (below : ∀ tree ∈ callees, id ∈ tree.passage.ends → ∃ last ∈ tree.nodes, last.id = id)
    (place : id = node.id ∨ ∃ callee ∈ callees.map CallTree.passage, id ∈ callee.ends) :
    ∃ last ∈ (CallTree.call node callees).nodes, last.id = id := by
  rw [CallTree.nodes_call]
  rcases place with rfl | ⟨callee, called, left⟩
  · exact ⟨node, List.mem_cons_self, rfl⟩
  · obtain ⟨tree, inside, rfl⟩ := List.mem_map.1 called
    obtain ⟨last, there, named⟩ := below tree inside left
    exact ⟨last, List.mem_cons_of_mem _ (List.mem_flatMap.2 ⟨tree, inside, there⟩), named⟩

theorem mem_ends (unfolds : graph.Unfolds tree) {id : String} (member : id ∈ tree.passage.ends) :
    ∃ node ∈ tree.nodes, node.id = id := by
  induction unfolds with
  | @call node callees found listed below ih =>
    rw [CallTree.passage_call] at member
    exact exists_node ih (Passage.of_mem_ends_around member)

/-- The nodes of the tree are what its root reaches. -/
theorem reaches_iff (unfolds : graph.Unfolds tree) {id : String} :
    graph.Reaches tree.node.id id ↔ ∃ node ∈ tree.nodes, node.id = id := by
  induction unfolds with
  | @call node callees found listed below ih =>
    rw [CallTree.nodes_call]
    constructor
    · intro path
      rcases ReflTransGen.cases_head path with rfl | ⟨next, call, rest⟩
      · exact ⟨node, List.mem_cons_self, rfl⟩
      · have called : next ∈ graph.callees node.id := call.2
        rw [listed] at called
        obtain ⟨tree, inside, rfl⟩ := List.mem_map.1 called
        obtain ⟨last, there, named⟩ := (ih tree inside).1 rest
        exact ⟨last, List.mem_cons_of_mem _ (List.mem_flatMap.2 ⟨tree, inside, there⟩), named⟩
    · intro inside
      obtain ⟨last, member, rfl⟩ := inside
      rcases List.mem_cons.1 member with rfl | member
      · exact .refl
      · obtain ⟨tree, inside, there⟩ := List.mem_flatMap.1 member
        have call : graph.Calls node.id tree.node.id :=
          ⟨contains_iff.2 ⟨node, found⟩, listed ▸ List.mem_map_of_mem inside⟩
        exact .head call ((ih tree inside).2 ⟨last, there, rfl⟩)

/-- A tree is finite, so calls do not lead round. -/
theorem not_leadsTo (unfolds : graph.Unfolds tree) : ¬ graph.LeadsTo tree.node.id tree.node.id := by
  induction unfolds with
  | @call node callees found listed below ih =>
    intro cycle
    obtain ⟨next, call, rest⟩ := TransGen.head'_iff.1 cycle
    have called : next ∈ graph.callees node.id := call.2
    rw [listed] at called
    obtain ⟨tree, inside, rfl⟩ := List.mem_map.1 called
    exact ih tree inside (TransGen.tail' rest call)

end Unfolds

/-- The calls behind an id are a tree: nothing calls the id itself, and no node has two callers. -/
structure Treelike (graph : Graph) (start : String) : Prop extends graph.Consistent where
  uncalled : graph.callers start = []
  known : ∀ id, graph.Reaches start id → graph.contains id = true
  few : ∀ id, graph.Reaches start id → (graph.callers id).length ≤ 1

namespace Treelike

theorem not_calls (treelike : graph.Treelike start) (caller : String) : ¬ graph.Calls caller start := by
  intro call
  have listed := (treelike.agree caller start).1 call.2
  simp [treelike.uncalled] at listed

theorem single (treelike : graph.Treelike start) {id first second : String} (behind : graph.Reaches start id)
    (one : graph.Calls first id) (two : graph.Calls second id) : first = second := by
  have here := (treelike.agree first id).1 one.2
  have there := (treelike.agree second id).1 two.2
  obtain ⟨only, listed⟩ := List.length_eq_one_iff.1 (Nat.le_antisymm (treelike.few id behind) (List.length_pos_of_mem here))
  rw [listed, List.mem_singleton] at here there
  exact here.trans there.symm

end Treelike

inductive Lineage (graph : Graph) (start : String) : List String → Prop where
  | start : graph.Lineage start [start]
  | call {caller callee : String} {chain : List String} (lineage : graph.Lineage start (caller :: chain))
      (call : graph.Calls caller callee) : graph.Lineage start (callee :: caller :: chain)

namespace Lineage

variable {chain : List String} {id : String}

theorem reaches (lineage : graph.Lineage start chain) (inside : id ∈ chain) : graph.Reaches start id := by
  induction lineage generalizing id with
  | start => exact List.mem_singleton.1 inside ▸ .refl
  | call _ call ih =>
    rcases List.mem_cons.1 inside with rfl | earlier
    · exact (ih List.mem_cons_self).tail call
    · exact ih earlier

theorem caller_mem_tail (lineage : graph.Lineage start chain) (inside : id ∈ chain) (other : id ≠ start) :
    ∃ caller ∈ chain.tail, graph.Calls caller id := by
  induction lineage with
  | start => exact absurd (List.mem_singleton.1 inside) other
  | call _ call ih =>
    rcases List.mem_cons.1 inside with rfl | earlier
    · exact ⟨_, List.mem_cons_self, call⟩
    · obtain ⟨caller, member, calls⟩ := ih earlier
      exact ⟨caller, List.mem_of_mem_tail member, calls⟩

theorem nodup (lineage : graph.Lineage start chain) (treelike : graph.Treelike start) : chain.Nodup := by
  induction lineage with
  | start => exact List.nodup_singleton _
  | @call caller callee chain lineage call ih =>
    refine List.nodup_cons.2 ⟨fun again => ?_, ih⟩
    have other : callee ≠ start := fun same => treelike.not_calls caller (same ▸ call)
    -- The callee's only caller would be in the chain twice.
    obtain ⟨first, member, calls⟩ := lineage.caller_mem_tail again other
    obtain rfl := treelike.single (lineage.reaches again) calls call
    exact (List.nodup_cons.1 ih).1 member

end Lineage

namespace Treelike

/-- Of two ids that lead to a third one, one leads to the other. -/
theorem comparable (treelike : graph.Treelike start) {first second last : String} (behind : graph.Reaches start first)
    (one : graph.Reaches first last) (two : graph.Reaches second last) :
    graph.Reaches first second ∨ graph.Reaches second first := by
  induction one with
  | refl => exact Or.inr two
  | @tail middle last path call ih =>
    rcases ReflTransGen.cases_tail two with rfl | ⟨other, rest, calls⟩
    · exact Or.inl (path.tail call)
    · obtain rfl := treelike.single (behind.trans (path.tail call)) calls call
      exact ih rest

/-- Nothing is behind two callees of a node. -/
theorem apart (treelike : graph.Treelike start) {parent first second last : String} (behind : graph.Reaches start parent)
    (acyclic : ¬ graph.LeadsTo parent parent) (one : graph.Calls parent first) (two : graph.Calls parent second)
    (different : first ≠ second) (reached : graph.Reaches first last) : ¬ graph.Reaches second last := by
  intro also
  have apart : ∀ {first second : String}, graph.Calls parent first → graph.Calls parent second → first ≠ second →
      ¬ graph.Reaches first second := by
    intro first second one two different path
    rcases ReflTransGen.cases_tail path with same | ⟨caller, rest, call⟩
    · exact different same.symm
    · obtain rfl := treelike.single (behind.tail two) call two
      exact acyclic (TransGen.head' one rest)
  rcases treelike.comparable (behind.tail one) reached also with path | path
  · exact apart one two different path
  · exact apart two one different.symm path

theorem nodup_nodes (treelike : graph.Treelike start) (unfolds : graph.Unfolds tree)
    (behind : graph.Reaches start tree.node.id) : (tree.nodes.map Node.id).Nodup := by
  have acyclic := unfolds.not_leadsTo
  induction unfolds with
  | @call node callees found listed below ih =>
    have calls : ∀ tree ∈ callees, graph.Calls node.id tree.node.id := fun tree inside =>
      ⟨contains_iff.2 ⟨node, found⟩, listed ▸ List.mem_map_of_mem inside⟩
    rw [CallTree.nodes_call, List.map_cons, List.nodup_cons, List.map_flatMap]
    constructor
    · intro again
      obtain ⟨tree, inside, member⟩ := List.mem_flatMap.1 again
      have path := (below tree inside).reaches_iff.2 (List.mem_map.1 member)
      exact acyclic (TransGen.head' (calls tree inside) path)
    · refine List.nodup_flatMap.2 ⟨fun tree inside => ?_, ?_⟩
      · exact ih tree inside (behind.tail (calls tree inside)) (below tree inside).not_leadsTo
      · have roots : (callees.map fun tree => tree.node.id).Nodup := listed ▸ graph.callees_nodup node.id
        refine (List.pairwise_map.1 roots).imp_of_mem fun {one two} first second different id here there => ?_
        exact treelike.apart behind acyclic (calls one first) (calls two second) different
          ((below one first).reaches_iff.2 (List.mem_map.1 here)) ((below two second).reaches_iff.2 (List.mem_map.1 there))

private theorem exists_trees {ids : List String} (each : ∀ id ∈ ids, ∃ tree, graph.Unfolds tree ∧ tree.node.id = id) :
    ∃ trees : List CallTree, ids = trees.map (fun tree => tree.node.id) ∧ ∀ tree ∈ trees, graph.Unfolds tree := by
  induction ids with
  | nil => exact ⟨[], rfl, nofun⟩
  | cons id later ih =>
    obtain ⟨tree, unfolds, rfl⟩ := each id List.mem_cons_self
    obtain ⟨trees, rfl, below⟩ := ih fun other listed => each other (List.mem_cons_of_mem _ listed)
    exact ⟨tree :: trees, rfl, List.forall_mem_cons.2 ⟨unfolds, below⟩⟩

private theorem unfolds_of_lineage (treelike : graph.Treelike start) {id : String} {chain : List String}
    (lineage : graph.Lineage start (id :: chain)) : ∃ tree, graph.Unfolds tree ∧ tree.node.id = id := by
  obtain ⟨node, found⟩ := contains_iff.1 (treelike.known id (lineage.reaches List.mem_cons_self))
  have fewer := unseen_cons_lt found (List.nodup_cons.1 (lineage.nodup treelike)).1
  obtain ⟨trees, listed, below⟩ := exists_trees fun callee called =>
    unfolds_of_lineage treelike (lineage.call ⟨contains_iff.2 ⟨node, found⟩, called⟩)
  obtain ⟨_, rfl⟩ := node?_some found
  exact ⟨.call node trees, .call found listed below, rfl⟩
termination_by graph.unseen chain

theorem exists_unfolds (treelike : graph.Treelike start) : ∃ tree, graph.Unfolds tree ∧ tree.node.id = start :=
  treelike.unfolds_of_lineage .start

/-- Nothing in a tree of calls needs copies. -/
theorem not_mem_shared (treelike : graph.Treelike start) {id : String} (behind : graph.Reaches start id) :
    id ∉ graph.shared := by
  intro member
  rw [Graph.shared, mem_closure] at member
  obtain ⟨first, listed, steps⟩ := member
  have path : graph.Reaches first id := by
    refine ReflTransGen.mono (fun caller callee step => ?_) _ _ steps
    obtain ⟨node, found, called⟩ := step
    obtain ⟨_, rfl⟩ := node?_some found
    exact ⟨contains_iff.2 ⟨node, found⟩, List.mem_of_mem_filter called⟩
  -- What leads into the tree is part of it.
  have inside : graph.Reaches start first := by
    rcases treelike.comparable .refl behind path with there | back
    · exact there
    · rcases ReflTransGen.cases_tail back with rfl | ⟨caller, _, call⟩
      · exact .refl
      · exact absurd call (treelike.not_calls caller)
  obtain ⟨node, several, rfl⟩ := List.mem_map.1 listed
  have few := treelike.few node.id inside
  have many := (List.mem_filter.1 several).2
  simp only [Bool.and_eq_true, decide_eq_true_eq] at many
  omega

end Treelike

theorem Valid.treelike (valid : graph.Valid) (consistent : graph.Consistent) {entry : Node}
    (first : graph.entry? = some entry)
    (alone : ∀ id, graph.Reaches entry.id id → id ≠ entry.id → (graph.callers id).length = 1) :
    graph.Treelike entry.id := by
  obtain ⟨start, begins, uncalled, _⟩ := valid.entry
  cases first.symm.trans begins
  refine ⟨consistent, uncalled, fun id => valid.contains_of_reaches (contains_entry first), fun id behind => ?_⟩
  by_cases same : id = entry.id
  · simp [same, uncalled]
  · exact Nat.le_of_eq (alone id behind same)

end Graph

end CallChart
