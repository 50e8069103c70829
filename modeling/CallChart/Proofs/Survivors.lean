import Mathlib.Data.List.Permutation
import CallChart.Proofs.Documents
import CallChart.Proofs.Pruning

/-! What pruning leaves of a graph, checked or not. A dead node stays dead whatever else is deleted, so nodes that
support one another outlast every deletion. Where no dead node is left, the rest supports itself: it is the
largest part of the graph that does, and the order of the deletions does not matter. -/

namespace CallChart

namespace Graph

open Relation

def Through (graph : Graph) (caller callee : String) : Prop :=
  (∃ kind, graph.kind? caller = some kind ∧ kind.structural = true) ∧ callee ∈ graph.callees caller

/-- Calls lead to a paragraph, with structural nodes only on the way. -/
def Bears (graph : Graph) (id : String) : Prop :=
  ∃ first ∈ graph.callees id, ∃ goal, ReflTransGen graph.Through first goal ∧ graph.kind? goal = some .normal

structure Alive (graph : Graph) (node : Node) : Prop where
  called : node.kind ≠ .start → graph.callers node.id ≠ []
  calls : node.kind.structural = true → graph.callees node.id ≠ []
  bears : node.kind.structural = true → graph.Bears node.id

def keeping (graph : Graph) (kept : List String) : Graph := graph.without (graph.ids.filter (· ∉ kept))

/-- Some nodes keep each other alive when all others are deleted. -/
def SelfSupporting (graph : Graph) (kept : List String) : Prop :=
  ∀ node ∈ (graph.keeping kept).nodes, (graph.keeping kept).Alive node

def Sheds (graph rest : Graph) : Prop :=
  ∃ node ∈ graph.nodes, graph.dead node = true ∧ rest = graph.remove node.id

variable {graph rest : Graph} {node : Node}

section Life

private theorem steps_eq_through :
    (graph.Steps fun node => if node.kind.structural then graph.callees node.id else []) = graph.Through := by
  funext caller callee
  apply propext
  constructor
  · intro stepped
    obtain ⟨node, found, listed⟩ := stepped
    simp only [(node?_some found).2] at listed
    split at listed
    · next structural => exact ⟨⟨node.kind, kind?_eq_some_iff.2 ⟨node, found, rfl⟩, structural⟩, listed⟩
    · cases listed
  · intro through
    obtain ⟨⟨kind, known, structural⟩, listed⟩ := through
    obtain ⟨node, found, rfl⟩ := kind?_eq_some_iff.1 known
    refine ⟨node, found, ?_⟩
    simpa only [(node?_some found).2, structural, if_true] using listed

theorem reachesNormal_iff_bears {id : String} : graph.reachesNormal id = true ↔ graph.Bears id := by
  simp only [reachesNormal, List.any_eq_true, decide_eq_true_eq, mem_closure, steps_eq_through]
  constructor
  · intro reached
    obtain ⟨goal, ⟨first, called, path⟩, normal⟩ := reached
    exact ⟨first, called, goal, path, normal⟩
  · intro bears
    obtain ⟨first, called, goal, path, normal⟩ := bears
    exact ⟨goal, ⟨first, called, path⟩, normal⟩

theorem dead_eq_false_iff : graph.dead node = false ↔ graph.Alive node := by
  constructor
  · intro living
    cases kind : node.kind with
    | start => exact ⟨fun different => absurd kind different, by simp [kind, Kind.structural], by simp [kind, Kind.structural]⟩
    | normal =>
      have called : graph.callers node.id ≠ [] := by simpa [dead, kind] using living
      exact ⟨fun _ => called, by simp [kind, Kind.structural], by simp [kind, Kind.structural]⟩
    | condition | conditionElse | loop =>
      simp only [dead, kind, Bool.or_eq_false_iff, decide_eq_false_iff_not, Bool.not_eq_false'] at living
      obtain ⟨⟨called, calls⟩, bears⟩ := living
      exact ⟨fun _ => called, fun _ => calls, fun _ => reachesNormal_iff_bears.1 bears⟩
  · intro alive
    obtain ⟨called, calls, bears⟩ := alive
    cases kind : node.kind with
    | start => simp [dead, kind]
    | normal => simp [dead, kind, called (by simp [kind])]
    | condition | conditionElse | loop =>
      have structural : node.kind.structural = true := by simp [kind, Kind.structural]
      simp [dead, kind, called (by simp [kind]), calls structural, reachesNormal_iff_bears.2 (bears structural)]

theorem kind?_of_without {gone : List String} {id : String} {kind : Kind}
    (known : (graph.without gone).kind? id = some kind) : graph.kind? id = some kind := by
  by_cases deleted : id ∈ gone
  · simp [kind?, node?_without, deleted] at known
  · rwa [kind?_without deleted] at known

theorem Through.of_without {gone : List String} {caller callee : String}
    (call : (graph.without gone).Through caller callee) : graph.Through caller callee := by
  obtain ⟨⟨kind, known, structural⟩, listed⟩ := call
  exact ⟨⟨kind, kind?_of_without known, structural⟩, (mem_callees_without.1 listed).1⟩

/-- Nothing comes alive by a deletion. -/
theorem Alive.of_without {gone : List String} (alive : (graph.without gone).Alive node) : graph.Alive node := by
  constructor
  · intro different
    obtain ⟨caller, member⟩ := List.exists_mem_of_ne_nil _ (alive.called different)
    exact List.ne_nil_of_mem (mem_callers_without.1 member).1
  · intro structural
    obtain ⟨callee, member⟩ := List.exists_mem_of_ne_nil _ (alive.calls structural)
    exact List.ne_nil_of_mem (mem_callees_without.1 member).1
  · intro structural
    obtain ⟨first, called, goal, path, normal⟩ := alive.bears structural
    refine ⟨first, (mem_callees_without.1 called).1, goal, ?_, kind?_of_without normal⟩
    exact ReflTransGen.mono (fun _ _ call => call.of_without) _ _ path

theorem dead_without (dead : graph.dead node = true) (gone : List String) : (graph.without gone).dead node = true := by
  by_contra living
  have alive := dead_eq_false_iff.1 (by simpa using living)
  simp [dead_eq_false_iff.2 alive.of_without] at dead

end Life

section Order

/-- A batch of dead nodes can be removed one by one. -/
private theorem sheds_batch {gone : List String} (consistent : graph.Consistent) (distinct : gone.Nodup)
    (dead : ∀ id ∈ gone, ∃ node ∈ graph.nodes, graph.dead node = true ∧ node.id = id) :
    ReflTransGen Sheds graph (graph.without gone) := by
  induction gone generalizing graph with
  | nil =>
    rw [without_nil]
  | cons first later ih =>
    obtain ⟨node, member, doomed, rfl⟩ := dead first List.mem_cons_self
    refine .head ⟨node, member, doomed, rfl⟩ ?_
    have split : graph.without (node.id :: later) = (graph.without [node.id]).without later := by
      rw [without_without]
      rfl
    rw [split, consistent.remove_eq]
    apply ih (consistent.without _) distinct.of_cons
    intro id inside
    obtain ⟨other, present, doomed, rfl⟩ := dead id (List.mem_cons_of_mem _ inside)
    have different : other.id ≠ node.id := by
      intro same
      exact (List.nodup_cons.1 distinct).1 (same ▸ inside)
    refine ⟨other, List.mem_filter.2 ⟨present, by simpa using different⟩, dead_without doomed _, rfl⟩

theorem sheds_prune (consistent : graph.Consistent) : ReflTransGen Sheds graph graph.prune := by
  fun_induction prune graph with
  | case1 => exact .refl
  | case2 graph _ ih =>
    have batch : ReflTransGen Sheds graph (graph.without graph.doomed) := by
      apply sheds_batch consistent
      · exact consistent.distinct.sublist (List.filter_sublist.map Node.id)
      · intro id doomed
        obtain ⟨node, dead, rfl⟩ := List.mem_map.1 doomed
        obtain ⟨member, dead⟩ := List.mem_filter.1 dead
        exact ⟨node, member, dead, rfl⟩
    exact batch.trans (ih (consistent.without _))

/-- What any number of removals has come to: some ids are deleted, and none of them belongs to nodes that support
each other. -/
def Sheddable (graph : Graph) (gone : List String) : Prop :=
  gone ⊆ graph.ids ∧ ∀ kept, kept ⊆ graph.ids → graph.SelfSupporting kept → ∀ id ∈ kept, id ∉ gone

theorem keeping_eq_without {gone kept : List String} (known : gone ⊆ graph.ids) (spared : ∀ id ∈ kept, id ∉ gone) :
    graph.keeping kept = (graph.without gone).without (graph.ids.filter (· ∉ kept)) := by
  rw [without_without, keeping]
  apply without_congr
  intro id
  rw [List.mem_append]
  constructor
  · exact Or.inr
  · intro either
    cases either with
    | inl deleted => exact List.mem_filter.2 ⟨known deleted, by simpa using fun inside => spared id inside deleted⟩
    | inr outside => exact outside

private theorem sheddable_step {gone : List String} {node : Node} (sheddable : graph.Sheddable gone)
    (member : node ∈ (graph.without gone).nodes) (dead : (graph.without gone).dead node = true) :
    graph.Sheddable (gone ++ [node.id]) := by
  obtain ⟨known, spared⟩ := sheddable
  obtain ⟨present, stays⟩ := List.mem_filter.1 member
  constructor
  · apply List.append_subset.2 ⟨known, ?_⟩
    intro id last
    rw [List.mem_singleton.1 last]
    exact List.mem_map_of_mem present
  · intro kept inside supporting id chosen deleted
    cases List.mem_append.1 deleted with
    | inl earlier => exact spared kept inside supporting id chosen earlier
    | inr last =>
      -- The node is alive among the nodes that support it, so it is alive where more is left.
      rw [List.mem_singleton.1 last] at chosen
      have smaller := keeping_eq_without known (spared kept inside supporting)
      have left : node ∈ (graph.keeping kept).nodes := by
        rw [smaller]
        exact List.mem_filter.2 ⟨member, by simp [chosen]⟩
      have alive := supporting node left
      rw [smaller] at alive
      simp [dead_eq_false_iff.2 alive.of_without] at dead

theorem sheddable_of_sheds (consistent : graph.Consistent) (path : ReflTransGen Sheds graph rest) :
    ∃ gone, graph.Sheddable gone ∧ rest = graph.without gone := by
  induction path with
  | refl => exact ⟨[], ⟨List.nil_subset _, fun _ _ _ _ _ => List.not_mem_nil⟩, (without_nil graph).symm⟩
  | tail _ step ih =>
    obtain ⟨gone, sheddable, rfl⟩ := ih
    obtain ⟨node, member, dead, rfl⟩ := step
    refine ⟨gone ++ [node.id], sheddable_step sheddable member dead, ?_⟩
    rw [(consistent.without gone).remove_eq, without_without]

end Order

structure Largest (graph rest : Graph) : Prop where
  deleted : ∃ gone, gone ⊆ graph.ids ∧ rest = graph.without gone
  whole : graph.keeping rest.ids = rest
  supporting : graph.SelfSupporting rest.ids
  covering : ∀ kept, kept ⊆ graph.ids → graph.SelfSupporting kept → kept ⊆ rest.ids

theorem largest_of_sheds (consistent : graph.Consistent) (path : ReflTransGen Sheds graph rest)
    (settled : ∀ node ∈ rest.nodes, rest.dead node = false) : graph.Largest rest := by
  obtain ⟨gone, ⟨known, spared⟩, rfl⟩ := sheddable_of_sheds consistent path
  have whole : graph.keeping (graph.without gone).ids = graph.without gone := by
    apply without_congr
    intro id
    rw [ids_without, List.mem_filter, decide_eq_true_eq, List.mem_filter, decide_eq_true_eq]
    constructor
    · intro both
      obtain ⟨inside, outside⟩ := both
      by_contra stays
      exact outside ⟨inside, stays⟩
    · intro deleted
      exact ⟨known deleted, fun inside => inside.2 deleted⟩
  refine ⟨⟨gone, known, rfl⟩, whole, ?_, ?_⟩
  · intro node member
    rw [whole] at member ⊢
    exact dead_eq_false_iff.1 (settled node member)
  · intro kept inside supporting id chosen
    rw [ids_without]
    exact List.mem_filter.2 ⟨inside chosen, by simpa using spared kept inside supporting id chosen⟩

theorem Largest.ids_subset (largest : graph.Largest rest) : rest.ids ⊆ graph.ids := by
  obtain ⟨gone, _, rfl⟩ := largest.deleted
  rw [ids_without]
  exact List.filter_subset_self _

theorem Largest.unique {other : Graph} (first : graph.Largest rest) (second : graph.Largest other) : rest = other := by
  have same : ∀ id, id ∈ rest.ids ↔ id ∈ other.ids := by
    intro id
    constructor
    · exact fun inside => second.covering rest.ids first.ids_subset first.supporting inside
    · exact fun inside => first.covering other.ids second.ids_subset second.supporting inside
  rw [← first.whole, ← second.whole, keeping, keeping]
  apply without_congr
  intro id
  simp [same]

theorem prune_settled (graph : Graph) : ∀ node ∈ graph.prune.nodes, graph.prune.dead node = false := by
  intro node member
  by_contra dead
  have doomed : node.id ∈ graph.prune.doomed :=
    List.mem_map_of_mem (List.mem_filter.2 ⟨member, by simpa using dead⟩)
  simp [graph.doomed_prune] at doomed

/-- Pruning deletes nodes with the links that touch them and changes nothing else. What it leaves is the largest
set of nodes that support each other; however dead nodes are removed one by one, the removals end there. -/
theorem prune_largest (built : graph.Built) :
    (∃ gone, gone ⊆ graph.ids ∧ graph.prune = graph.without gone ∧
      graph.prune.nodes = graph.nodes.filter (fun node => node.id ∉ gone) ∧
      ∀ id, id ∉ gone → graph.prune.callers id = (graph.callers id).filter (· ∉ gone) ∧
        graph.prune.callees id = (graph.callees id).filter (· ∉ gone)) ∧
    graph.SelfSupporting graph.prune.ids ∧
    (∀ kept, kept ⊆ graph.ids → graph.SelfSupporting kept → kept ⊆ graph.prune.ids) ∧
    ReflTransGen Sheds graph graph.prune ∧
    (∀ rest, ReflTransGen Sheds graph rest → (∀ node ∈ rest.nodes, rest.dead node = false) → rest = graph.prune) ∧
    graph.prune.prune = graph.prune := by
  have path := sheds_prune built.consistent
  have largest := largest_of_sheds built.consistent path graph.prune_settled
  refine ⟨?_, largest.supporting, largest.covering, path, ?_, ?_⟩
  · obtain ⟨gone, known, deleted⟩ := largest.deleted
    refine ⟨gone, known, deleted, by rw [deleted]; rfl, ?_⟩
    intro id stays
    rw [deleted, callers_without, callees_without, if_neg stays, if_neg stays]
    exact ⟨rfl, rfl⟩
  · intro rest other settled
    exact (largest_of_sheds built.consistent other settled).unique largest
  · rw [prune, if_pos graph.doomed_prune]

/-- A loop and a condition that lead only to each other, a paragraph that nothing calls with one below it, a paragraph
that calls itself and an id that is no node, and a paragraph that is called from such an id. -/
def frayed : List NodeDoc := [
  .brief "MAIN" .start [] ["LOOP"],
  .brief "LOOP" .loop ["MAIN"] ["IF"],
  .brief "IF" .condition ["LOOP"] ["LOOP"],
  .brief "SPARE" .normal [] ["COPY"],
  .brief "COPY" .normal ["SPARE"] [],
  .brief "SELF" .normal ["SELF"] ["SELF", "NOWHERE"],
  .brief "HELD" .normal ["NOWHERE"] []]

theorem frayed_prune :
    ∃ base graph, GraphDoc.addNodes {} frayed = .ok base ∧
      graph = (GraphDoc.linkCallees base frayed).link "NOWHERE" "HELD" ∧ graph.Built ∧
      graph.prune.ids = ["MAIN", "SELF", "HELD"] ∧ graph.prune.callees "SELF" = ["SELF", "NOWHERE"] ∧
      graph.prune.prune = graph.prune ∧
      ∀ kept, kept ⊆ graph.ids → graph.SelfSupporting kept → kept ⊆ ["MAIN", "SELF", "HELD"] := by
  obtain ⟨base, added⟩ : ∃ base, GraphDoc.addNodes {} frayed = .ok base := ⟨_, rfl⟩
  have built : ((GraphDoc.linkCallees base frayed).link "NOWHERE" "HELD").Built :=
    .link (GraphDoc.built_linkCallees (GraphDoc.built_addNodes .empty added)) _ _
  obtain ⟨_, _, covering, _, _, twice⟩ := prune_largest built
  have left : (GraphDoc.addNodes {} frayed).map (fun base =>
      let graph := ((GraphDoc.linkCallees base frayed).link "NOWHERE" "HELD").prune
      (graph.ids, graph.callees "SELF")) = .ok (["MAIN", "SELF", "HELD"], ["SELF", "NOWHERE"]) := by cbv
  simp only [added, Except.map, Except.ok.injEq, Prod.mk.injEq] at left
  rw [left.1] at covering
  exact ⟨base, _, added, rfl, built, left.1, left.2, twice, covering⟩

end Graph

end CallChart
