import CallChart.Graph.Prune
import CallChart.Proofs.WorkLists

/-! Paths of calls. A search finds exactly what its steps lead to, so the test for a paragraph below a structural node
can be read as a statement about paths. -/

namespace CallChart

namespace Graph

open Relation

/-- A node calls an id. The id need not be a node itself. -/
def Calls (graph : Graph) (caller callee : String) : Prop :=
  graph.contains caller ∧ callee ∈ graph.callees caller

/-- Calls lead from the first id to the second, which may be the first itself. -/
def Reaches (graph : Graph) : String → String → Prop := ReflTransGen graph.Calls

/-- One call or more lead from the first id to the second. -/
def LeadsTo (graph : Graph) : String → String → Prop := TransGen graph.Calls

theorem contains_iff {graph : Graph} {id : String} :
    graph.contains id ↔ ∃ node, graph.node? id = some node := by
  simp only [contains, Option.isSome_iff_exists]

theorem kind?_eq_some_iff {graph : Graph} {id : String} {kind : Kind} :
    graph.kind? id = some kind ↔ ∃ node, graph.node? id = some node ∧ node.kind = kind := by
  simp only [kind?, Option.map_eq_some_iff]

variable {graph : Graph}

/-- The work list that follows all calls finds what calls lead to. -/
theorem reaches_iff_mem_closure {start id : String} :
    graph.Reaches start id ↔ id ∈ graph.closure (fun node => graph.callees node.id) [start] [] := by
  have steps : graph.Steps (fun node => graph.callees node.id) = graph.Calls := by
    funext caller callee
    apply propext
    constructor
    · intro step
      obtain ⟨node, found, listed⟩ := step
      exact ⟨contains_iff.2 ⟨node, found⟩, (node?_some found).2 ▸ listed⟩
    · intro call
      obtain ⟨node, found⟩ := contains_iff.1 call.1
      obtain ⟨_, rfl⟩ := node?_some found
      exact ⟨node, found, call.2⟩
  rw [mem_closure, steps]
  simp [Reaches]

instance (graph : Graph) (first last : String) : Decidable (graph.Reaches first last) :=
  decidable_of_iff _ reaches_iff_mem_closure.symm

/-- From an id that is called, the first paragraph on a path is met behind structural nodes only. -/
private theorem normal_behind_structural
    (uncalled : ∀ caller callee, graph.Calls caller callee → graph.kind? callee ≠ some .start)
    {id goal : String} (path : graph.Reaches id goal) (normal : graph.kind? goal = some .normal) :
    (∃ caller, graph.Calls caller id) →
      ∃ first, graph.kind? first = some .normal ∧
        ReflTransGen
          (graph.Steps fun node => if node.kind.structural then graph.callees node.id else []) id first := by
  -- From the far end: what is called on the way is no start node, so a node on it is a paragraph or structural.
  induction path using ReflTransGen.head_induction_on with
  | refl => exact fun _ => ⟨goal, normal, .refl⟩
  | @head id next call _ ih =>
    rintro ⟨caller, called⟩
    obtain ⟨first, paragraph, behind⟩ := ih ⟨id, call⟩
    obtain ⟨node, found⟩ := contains_iff.1 call.1
    have named := (node?_some found).2
    cases kind : node.kind with
    | start => exact absurd (kind?_eq_some_iff.2 ⟨node, found, kind⟩) (uncalled caller id called)
    | normal => exact ⟨id, kind?_eq_some_iff.2 ⟨node, found, kind⟩, .refl⟩
    | condition | conditionElse | loop =>
      refine ⟨first, paragraph, .head ⟨node, found, ?_⟩ behind⟩
      simpa [kind, Kind.structural, named] using call.2

/-- Where start nodes are not called, the test for a paragraph below a node holds exactly if calls
lead from the node to a paragraph. -/
theorem reachesNormal_iff
    (uncalled : ∀ caller callee, graph.Calls caller callee → graph.kind? callee ≠ some .start)
    {id : String} (inside : graph.contains id) :
    graph.reachesNormal id ↔ ∃ goal, graph.LeadsTo id goal ∧ graph.kind? goal = some .normal := by
  simp only [reachesNormal, List.any_eq_true, decide_eq_true_eq, mem_closure]
  constructor
  · rintro ⟨goal, ⟨first, called, path⟩, normal⟩
    refine ⟨goal, TransGen.head' ⟨inside, called⟩ (ReflTransGen.mono ?_ _ _ path), normal⟩
    rintro before after ⟨node, found, listed⟩
    refine ⟨contains_iff.2 ⟨node, found⟩, ?_⟩
    simp only [(node?_some found).2] at listed
    split at listed
    · exact listed
    · cases listed
  · rintro ⟨goal, path, normal⟩
    obtain ⟨first, call, rest⟩ := TransGen.head'_iff.1 path
    obtain ⟨paragraph, found, behind⟩ := normal_behind_structural uncalled rest normal ⟨id, call⟩
    exact ⟨paragraph, ⟨first, call.2, behind⟩, found⟩

end Graph

end CallChart
