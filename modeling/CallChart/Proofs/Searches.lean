import Mathlib.Data.List.Chain
import Mathlib.Data.List.Permutation
import CallChart.Narrative.Walk
import CallChart.Proofs.Histories

/-! What the two searches of a graph find. The search for a paragraph follows the calls of structural nodes and stops at
the first paragraph, and still it finds one exactly if any calls lead to one. The search for nodes that may be told
more than once finds the least set that has the nodes with several callers and grows along calls. Both end on every
graph, in whatever order the ids on their lists are taken. -/

namespace CallChart

namespace Graph

open Relation

variable {graph : Graph}

section Paragraphs

/-- What the search for a paragraph puts on its list. -/
def branchCalls (graph : Graph) (node : Node) : List String :=
  if node.kind.structural then graph.callees node.id else []

theorem reachesNormal_eq_true_iff {id : String} : graph.reachesNormal id = true ↔
    ∃ goal ∈ graph.closure graph.branchCalls (graph.callees id) [], graph.kind? goal = some .normal := by
  simp only [reachesNormal, List.any_eq_true, decide_eq_true_eq]
  rfl

def callCount (graph : Graph) : Nat := (graph.nodes.map fun node => (graph.callees node.id).length).sum

theorem sum_steps_le {step : Node → List String} (calls : ∀ node, (step node).length ≤ (graph.callees node.id).length) :
    (graph.nodes.map fun node => (step node).length).sum ≤ graph.callCount :=
  List.sum_le_sum fun node _ => calls node

/-- A search that stops at a paragraph, or with nothing left on its list, has the answer. -/
theorem Rounds.reachesNormal_iff {id : String} {count : Nat} {search : Search}
    (rounds : graph.Rounds graph.branchCalls count ⟨graph.callees id, []⟩ search)
    (stopped : search.todo = [] ∨ ∃ goal ∈ search.seen, graph.kind? goal = some .normal) :
    graph.reachesNormal id = true ↔ ∃ goal ∈ search.seen, graph.kind? goal = some .normal := by
  rw [reachesNormal_eq_true_iff]
  constructor
  · intro reached
    obtain ⟨goal, member, normal⟩ := reached
    rcases stopped with finished | found
    · exact ⟨goal, (rounds.mem_seen_iff finished).2 member, normal⟩
    · exact found
  · intro met
    obtain ⟨goal, member, normal⟩ := met
    exact ⟨goal, rounds.seen_subset member, normal⟩

/-- Where nothing calls a start node, the test for a paragraph below a node holds exactly if one call or more lead from
the node to a paragraph. However the rounds of the search go, there are no more of them than calls, and wherever it
stops, its answer is the same. -/
theorem paragraph_search_exact (built : graph.Built)
    (uncalled : ∀ node ∈ graph.nodes, node.kind = .start → graph.callers node.id = []) {id : String}
    (inside : graph.contains id = true) :
    (graph.reachesNormal id = true ↔ ∃ goal, graph.LeadsTo id goal ∧ graph.kind? goal = some .normal) ∧
      graph.Terminates graph.branchCalls ⟨graph.callees id, []⟩ ((graph.callees id).length + graph.callCount) ∧
      ∀ count search, graph.Rounds graph.branchCalls count ⟨graph.callees id, []⟩ search →
        (search.todo = [] ∨ ∃ goal ∈ search.seen, graph.kind? goal = some .normal) →
          (graph.reachesNormal id = true ↔ ∃ goal ∈ search.seen, graph.kind? goal = some .normal) := by
  refine ⟨reachesNormal_iff (fun _ _ => built.consistent.kind?_callee uncalled) inside, ?_, ?_⟩
  · refine (terminates (graph.callees id)).mono (Nat.add_le_add_left (sum_steps_le fun node => ?_) _)
    unfold branchCalls
    split <;> simp
  · intro count search rounds stopped
    exact rounds.reachesNormal_iff stopped

/-- A loop and a condition around a paragraph, another two around nothing, and an id that is no node below both. -/
def circling : List Edit := [
  .brief "MAIN" .start, .brief "LOOP" .loop, .brief "IF" .condition, .brief "SAVE" .normal, .brief "KNOT" .loop,
  .brief "ELSE" .conditionElse, .link "MAIN" "LOOP", .link "LOOP" "IF", .link "LOOP" "GONE", .link "IF" "LOOP",
  .link "IF" "SAVE", .link "SAVE" "LOOP", .link "MAIN" "KNOT", .link "KNOT" "ELSE", .link "ELSE" "GONE",
  .link "ELSE" "KNOT"]

theorem circling_paragraphs :
    (edited circling).Built ∧
      (∀ node ∈ (edited circling).nodes, node.kind = .start → (edited circling).callers node.id = []) ∧
      (edited circling).contains "LOOP" = true ∧ (edited circling).contains "KNOT" = true ∧
      (edited circling).reachesNormal "LOOP" = true ∧ (edited circling).reachesNormal "KNOT" = false ∧
      ¬ (∃ goal, (edited circling).LeadsTo "KNOT" goal ∧ (edited circling).kind? goal = some .normal) ∧
      (edited circling).Terminates (edited circling).branchCalls ⟨["IF", "GONE"], []⟩ 12 := by
  have built := built_edited circling
  have uncalled : ∀ node ∈ (edited circling).nodes, node.kind = .start → (edited circling).callers node.id = [] := by
    decide
  have loop : (edited circling).contains "LOOP" = true := rfl
  have knot : (edited circling).contains "KNOT" = true := rfl
  have path : (edited circling).LeadsTo "LOOP" "SAVE" := by
    have first : (edited circling).Calls "LOOP" "IF" := ⟨loop, by decide⟩
    have second : (edited circling).Calls "IF" "SAVE" := ⟨rfl, by decide⟩
    exact .tail (.single first) second
  have nothing : (edited circling).reachesNormal "KNOT" = false := by cbv
  obtain ⟨found, ends, _⟩ := paragraph_search_exact built uncalled loop
  obtain ⟨missed, _, _⟩ := paragraph_search_exact built uncalled knot
  refine ⟨built, uncalled, loop, knot, found.2 ⟨"SAVE", path, rfl⟩, nothing, ?_, ends⟩
  intro leads
  rw [missed.2 leads] at nothing
  cases nothing

end Paragraphs

section Sharing

def Repeatable (graph : Graph) (id : String) : Prop :=
  ∃ node, graph.node? id = some node ∧ node.kind ≠ .start ∧ node.kind ≠ .loop

/-- A set of ids that has the repeatable nodes with several callers, and with an id the repeatable nodes that it calls. -/
structure Spreading (graph : Graph) (kept : String → Prop) : Prop where
  several : ∀ id, graph.Repeatable id → 1 < (graph.callers id).length → kept id
  callees : ∀ caller callee, kept caller → callee ∈ graph.callees caller → graph.Repeatable callee → kept callee

structure SpreadsAlong (graph : Graph) (path : List String) (last : String) : Prop where
  calls : path.IsChain fun caller callee => callee ∈ graph.callees caller
  repeatable : ∀ id ∈ path, graph.Repeatable id
  ends : path.getLast? = some last

/-- The ids with which the search for shared nodes begins. -/
def severalCalled (graph : Graph) : List String :=
  (graph.nodes.filter fun node => node.kind.duplicable && 1 < (graph.callers node.id).length).map Node.id

def repeatableCalls (graph : Graph) (node : Node) : List String :=
  (graph.callees node.id).filter fun id => (graph.kind? id).any Kind.duplicable

theorem shared_eq_closure (graph : Graph) : graph.shared = graph.closure graph.repeatableCalls graph.severalCalled [] := rfl

theorem duplicable_iff {kind : Kind} : kind.duplicable = true ↔ kind ≠ .start ∧ kind ≠ .loop := by
  cases kind <;> simp [Kind.duplicable]

theorem repeatable_iff {id : String} : graph.Repeatable id ↔ (graph.kind? id).any Kind.duplicable = true := by
  simp only [Repeatable, ← duplicable_iff, kind?, Option.any_map, Option.any_eq_true]

theorem Consistent.repeatable_iff (consistent : graph.Consistent) {id : String} :
    graph.Repeatable id ↔ ∃ node ∈ graph.nodes, node.id = id ∧ node.kind.duplicable = true := by
  simp only [Repeatable, ← duplicable_iff]
  constructor
  · intro repeatable
    obtain ⟨node, found, duplicable⟩ := repeatable
    exact ⟨node, (node?_some found).1, (node?_some found).2, duplicable⟩
  · intro listed
    obtain ⟨node, member, rfl, duplicable⟩ := listed
    exact ⟨node, node?_of_mem consistent.distinct member, duplicable⟩

theorem Consistent.mem_severalCalled (consistent : graph.Consistent) {id : String} :
    id ∈ graph.severalCalled ↔ graph.Repeatable id ∧ 1 < (graph.callers id).length := by
  rw [consistent.repeatable_iff, severalCalled]
  constructor
  · intro listed
    obtain ⟨node, chosen, rfl⟩ := List.mem_map.1 listed
    obtain ⟨member, crowded⟩ := List.mem_filter.1 chosen
    simp only [Bool.and_eq_true, decide_eq_true_eq] at crowded
    exact ⟨⟨node, member, rfl, crowded.1⟩, crowded.2⟩
  · intro crowded
    obtain ⟨⟨node, member, rfl, duplicable⟩, several⟩ := crowded
    exact List.mem_map_of_mem (List.mem_filter.2 ⟨member, by simp [duplicable, several]⟩)

theorem steps_repeatableCalls {caller callee : String} : graph.Steps graph.repeatableCalls caller callee ↔
    graph.contains caller = true ∧ callee ∈ graph.callees caller ∧ graph.Repeatable callee := by
  simp only [Steps, repeatableCalls, List.mem_filter, graph.repeatable_iff, contains_iff]
  constructor
  · intro step
    obtain ⟨node, found, listed, repeatable⟩ := step
    rw [(node?_some found).2] at listed
    exact ⟨⟨node, found⟩, listed, repeatable⟩
  · intro call
    obtain ⟨⟨node, found⟩, listed, repeatable⟩ := call
    obtain ⟨_, rfl⟩ := node?_some found
    exact ⟨node, found, listed, repeatable⟩

/-- No smaller set has what the shared nodes are to have. -/
theorem Spreading.of_shared {kept : String → Prop} (consistent : graph.Consistent) (spreading : graph.Spreading kept)
    {id : String} (member : id ∈ graph.shared) : kept id := by
  rw [shared_eq_closure, mem_closure] at member
  obtain ⟨first, several, path⟩ := member
  obtain ⟨repeatable, crowded⟩ := consistent.mem_severalCalled.1 several
  induction path with
  | refl => exact spreading.several first repeatable crowded
  | tail _ step ih =>
    obtain ⟨_, listed, next⟩ := steps_repeatableCalls.1 step
    exact spreading.callees _ _ ih listed next

theorem Consistent.repeatable_of_shared (consistent : graph.Consistent) {id : String} (member : id ∈ graph.shared) :
    graph.Repeatable id := by
  have spreading : graph.Spreading graph.Repeatable :=
    ⟨fun _ repeatable _ => repeatable, fun _ _ _ _ repeatable => repeatable⟩
  exact spreading.of_shared consistent member

theorem Consistent.spreading_shared (consistent : graph.Consistent) : graph.Spreading (· ∈ graph.shared) := by
  constructor
  · intro id repeatable several
    rw [shared_eq_closure, mem_closure]
    exact ⟨id, consistent.mem_severalCalled.2 ⟨repeatable, several⟩, .refl⟩
  · intro caller callee member listed repeatable
    obtain ⟨node, found, _⟩ := consistent.repeatable_of_shared member
    rw [shared_eq_closure, mem_closure] at member ⊢
    obtain ⟨first, several, path⟩ := member
    exact ⟨first, several, path.tail (steps_repeatableCalls.2 ⟨contains_iff.2 ⟨node, found⟩, listed, repeatable⟩)⟩

theorem SpreadsAlong.concat {path : List String} {caller callee : String} (along : graph.SpreadsAlong path caller)
    (listed : callee ∈ graph.callees caller) (repeatable : graph.Repeatable callee) :
    graph.SpreadsAlong (path ++ [callee]) callee := by
  refine ⟨List.isChain_append.2 ⟨along.calls, .singleton _, ?_⟩, ?_, by simp⟩
  · intro last final next only
    cases along.ends.symm.trans final
    cases only
    exact listed
  · intro id member
    rcases List.mem_append.1 member with old | new
    · exact along.repeatable id old
    · exact List.mem_singleton.1 new ▸ repeatable

/-- A path ends in the set if it begins there. -/
theorem SpreadsAlong.kept {kept : String → Prop} {path : List String} {last : String} (along : graph.SpreadsAlong path last)
    (spreading : graph.Spreading kept) (begins : ∀ first ∈ path.head?, kept first) : kept last := by
  obtain ⟨calls, repeatable, ends⟩ := along
  induction path with
  | nil => cases ends
  | cons first rest ih =>
    cases rest with
    | nil =>
      cases ends
      exact begins first rfl
    | cons second rest =>
      obtain ⟨call, calls⟩ := List.isChain_cons_cons.1 calls
      refine ih ?_ calls (fun id member => repeatable id (List.mem_cons_of_mem _ member)) ends
      intro next only
      cases only
      exact spreading.callees first second (begins first rfl) call (repeatable second (by simp))

theorem Consistent.mem_shared_iff_path (consistent : graph.Consistent) {id : String} : id ∈ graph.shared ↔
    ∃ path, graph.SpreadsAlong path id ∧ ∃ first ∈ path.head?, 1 < (graph.callers first).length := by
  constructor
  · -- The ends of such paths are one of the sets of which the shared nodes are the least.
    have spreading : graph.Spreading fun id =>
        ∃ path, graph.SpreadsAlong path id ∧ ∃ first ∈ path.head?, 1 < (graph.callers first).length := by
      constructor
      · intro id repeatable several
        exact ⟨[id], ⟨.singleton _, by simpa using repeatable, rfl⟩, id, rfl, several⟩
      · intro caller callee led listed repeatable
        obtain ⟨path, along, first, begins, several⟩ := led
        refine ⟨path ++ [callee], along.concat listed repeatable, first, ?_, several⟩
        rw [List.head?_append, begins]
        rfl
    exact spreading.of_shared consistent
  · intro led
    obtain ⟨path, along, first, begins, several⟩ := led
    apply along.kept consistent.spreading_shared
    intro other same
    cases begins.symm.trans same
    exact consistent.spreading_shared.several first (along.repeatable first (List.mem_of_mem_head? begins)) several

/-- In a graph with more repeatable nodes, callers and calls, more is shared. -/
theorem Consistent.shared_subset {other : Graph} (first : graph.Consistent) (second : other.Consistent)
    (repeatable : ∀ id, graph.Repeatable id → other.Repeatable id)
    (callers : ∀ id, (graph.callers id).length ≤ (other.callers id).length)
    (callees : ∀ id, graph.callees id ⊆ other.callees id) : graph.shared ⊆ other.shared := by
  have larger := second.spreading_shared
  have spreading : graph.Spreading (· ∈ other.shared) := by
    constructor
    · intro id again several
      exact larger.several id (repeatable id again) (Nat.lt_of_lt_of_le several (callers id))
    · intro caller callee inside listed again
      exact larger.callees caller callee inside (callees caller listed) (repeatable callee again)
  intro id member
  exact spreading.of_shared first member

/-- What is shared does not depend on the order of nodes and links. -/
theorem Consistent.shared_subset_of_mem {other : Graph} (first : graph.Consistent) (second : other.Consistent)
    (nodes : ∀ node, node ∈ graph.nodes ↔ node ∈ other.nodes)
    (callees : ∀ caller callee, callee ∈ graph.callees caller ↔ callee ∈ other.callees caller) :
    graph.shared ⊆ other.shared := by
  apply first.shared_subset second
  · intro id
    simp only [first.repeatable_iff, second.repeatable_iff, nodes, imp_self]
  · intro id
    exact (first.callers_perm second callees id).length_eq.le
  · exact fun caller callee => (callees caller callee).1

/-- The shared nodes are the least set of ids that has the repeatable nodes with several callers and grows along calls to
repeatable nodes. They are the ends of the paths of repeatable nodes that begin at a node with several callers,
whatever the order of nodes and links. However the rounds of the search for them go, there are no more of them than
nodes and calls, and what has been seen at the end is the same. -/
theorem shared_nodes_least (built : graph.Built) :
    ((∀ id ∈ graph.shared, graph.contains id = true) ∧ graph.Spreading (· ∈ graph.shared) ∧
        ∀ kept, graph.Spreading kept → ∀ id ∈ graph.shared, kept id) ∧
      (∀ id, id ∈ graph.shared ↔
        ∃ path, graph.SpreadsAlong path id ∧ ∃ first ∈ path.head?, 1 < (graph.callers first).length) ∧
      (∀ other : Graph, other.Built → (∀ node, node ∈ graph.nodes ↔ node ∈ other.nodes) →
        (∀ caller callee, callee ∈ graph.callees caller ↔ callee ∈ other.callees caller) →
          ∀ id, id ∈ graph.shared ↔ id ∈ other.shared) ∧
      graph.Terminates graph.repeatableCalls ⟨graph.severalCalled, []⟩ (graph.nodes.length + graph.callCount) ∧
      ∀ count search, graph.Rounds graph.repeatableCalls count ⟨graph.severalCalled, []⟩ search → search.todo = [] →
        ∀ id, id ∈ search.seen ↔ id ∈ graph.shared := by
  have consistent := built.consistent
  refine ⟨⟨?_, consistent.spreading_shared, ?_⟩, fun id => consistent.mem_shared_iff_path, ?_, ?_, ?_⟩
  · intro id member
    obtain ⟨node, found, _⟩ := consistent.repeatable_of_shared member
    exact contains_iff.2 ⟨node, found⟩
  · intro kept spreading id member
    exact spreading.of_shared consistent member
  · intro other made nodes callees id
    constructor
    · exact fun member => consistent.shared_subset_of_mem made.consistent nodes callees member
    · exact fun member => made.consistent.shared_subset_of_mem consistent (fun node => (nodes node).symm)
        (fun caller callee => (callees caller callee).symm) member
  · refine (terminates graph.severalCalled).mono (Nat.add_le_add ?_ (sum_steps_le fun node => List.length_filter_le _ _))
    rw [severalCalled, List.length_map]
    exact List.length_filter_le _ _
  · intro count search rounds finished id
    exact rounds.mem_seen_iff finished

/-- A paragraph with two callers that calls itself through a condition, a loop below it with a paragraph of its own, and
an id that is no node with two callers. -/
def spreading : List Edit := [
  .brief "MAIN" .start, .brief "SEND" .normal, .brief "COPY" .normal, .brief "IF" .condition, .brief "LOOP" .loop,
  .brief "READ" .normal, .link "MAIN" "SEND", .link "MAIN" "COPY", .link "SEND" "COPY", .link "COPY" "IF",
  .link "COPY" "LOOP", .link "IF" "COPY", .link "IF" "GONE", .link "SEND" "GONE", .link "LOOP" "READ"]

theorem spreading_shared_nodes :
    (edited spreading).Built ∧ (edited spreading).shared = ["IF", "COPY"] ∧
      (∃ path, (edited spreading).SpreadsAlong path "IF" ∧
        ∃ first ∈ path.head?, 1 < ((edited spreading).callers first).length) ∧
      (¬ ∃ path, (edited spreading).SpreadsAlong path "READ" ∧
        ∃ first ∈ path.head?, 1 < ((edited spreading).callers first).length) ∧
      (∀ kept, (edited spreading).Spreading kept → kept "IF" ∧ kept "COPY") ∧
      (edited spreading).Terminates (edited spreading).repeatableCalls ⟨["COPY"], []⟩ 15 := by
  have built := built_edited spreading
  have found : (edited spreading).shared = ["IF", "COPY"] := by cbv
  obtain ⟨⟨_, _, least⟩, paths, _, ends, _⟩ := shared_nodes_least built
  refine ⟨built, found, (paths "IF").1 (by simp [found]), ?_, ?_, ends⟩
  · rw [← paths "READ", found]
    decide
  · intro kept closed
    exact ⟨least kept closed "IF" (by simp [found]), least kept closed "COPY" (by simp [found])⟩

end Sharing

end Graph

end CallChart
