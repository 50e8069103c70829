import CallChart.Proofs.Building
import CallChart.Proofs.Checking
import CallChart.Proofs.Flow

/-! What the telling of a whole graph amounts to. It fails only for want of a node that is called, so a
checked graph is always told; and then the laws of the walk, begun with nothing told and no call open,
say that the narrative has the nodes behind the entry, each of their calls, and no link besides. -/

namespace CallChart

namespace Graph

variable {graph : Graph} {shared : List String}

private theorem tellCallees_error {visit : String → Walk → Except GraphError (Visit × Walk)} {parent : Node}
    {id : String} {left : List String} {ends : Ends} {walk : Walk} {fault : GraphError}
    (failed : graph.tellCallees visit parent id left ends walk = .error fault) :
    ∃ callee ∈ left, ∃ walk, visit callee walk = .error fault := by
  induction left generalizing ends walk with
  | nil => cases failed
  | cons callee rest ih =>
    unfold tellCallees at failed
    split at failed
    · next visited =>
      cases failed
      exact ⟨callee, List.mem_cons_self, walk, visited⟩
    · split at failed
      all_goals
        obtain ⟨other, member, found⟩ := ih failed
        exact ⟨other, List.mem_cons_of_mem _ member, found⟩

/-- A telling fails only at an id behind the one told that no node has. -/
theorem visit_error {chain : List String} {id : String} {walk : Walk} {fault : GraphError}
    (failed : graph.visit shared chain id walk = .error fault) :
    ∃ missing, fault = .unknownCallee missing ∧ graph.node? missing = none ∧ graph.Reaches id missing := by
  -- The walk raises no other fault itself; any further one comes from a callee.
  rw [visit] at failed
  split at failed
  · next absent =>
    cases failed
    exact ⟨id, rfl, absent, .refl⟩
  next node found =>
    split at failed
    · cases failed
    split at failed
    · cases failed
    next closed =>
    split at failed
    · cases failed
    dsimp only at failed
    split at failed
    · next stuck =>
      cases failed
      obtain ⟨callee, listed, middle, inner⟩ := tellCallees_error stuck
      have fewer := unseen_cons_lt found closed
      obtain ⟨missing, named, absent, path⟩ := visit_error inner
      exact ⟨missing, named, absent, .head ⟨contains_iff.2 ⟨node, found⟩, listed⟩ path⟩
    · cases failed
termination_by graph.unseen chain

theorem Valid.contains_of_reaches (valid : graph.Valid) {first last : String} (known : graph.contains first = true)
    (path : graph.Reaches first last) : graph.contains last = true := by
  induction path with
  | refl => exact known
  | tail _ call _ => exact (valid.contains_of_mem_callees call.2).2

theorem contains_entry {entry : Node} (first : graph.entry? = some entry) : graph.contains entry.id = true :=
  contains_iff_mem_ids.2 (List.mem_map_of_mem (List.mem_of_find?_eq_some first))

theorem Valid.narrate (valid : graph.Valid) : ∃ narrative, graph.narrate = .ok narrative := by
  obtain ⟨entry, first, _⟩ := valid.entry
  cases told : graph.visit graph.shared [] entry.id {} with
  | ok result => exact ⟨result.2.told, by simp [Graph.narrate, first, told, Except.map]⟩
  | error fault =>
    obtain ⟨missing, _, absent, path⟩ := visit_error told
    obtain ⟨node, found⟩ := contains_iff.1 (valid.contains_of_reaches (contains_entry first) path)
    cases absent.symm.trans found

theorem narrate_eq_ok {narrative : Narrative} (told : graph.narrate = .ok narrative) :
    ∃ entry visit walk, graph.entry? = some entry ∧ graph.visit graph.shared [] entry.id {} = .ok (visit, walk) ∧
      walk.told = narrative := by
  unfold Graph.narrate at told
  split at told
  · cases told
  next entry first =>
    cases visited : graph.visit graph.shared [] entry.id {} with
    | error fault => simp [visited, Except.map] at told
    | ok result =>
      rw [visited] at told
      exact ⟨entry, result.1, result.2, first, visited, Except.ok.inj told⟩

theorem exists_narrative {α : Type} {view : Narrative → α} {value : α} (shown : graph.narrate.map view = .ok value) :
    ∃ narrative, graph.narrate = .ok narrative ∧ view narrative = value := by
  cases told : graph.narrate with
  | error fault =>
    rw [told] at shown
    cases shown
  | ok narrative =>
    rw [told] at shown
    exact ⟨narrative, rfl, Except.ok.inj shown⟩

structure Tells (graph : Graph) (entry : String) (narrative : Narrative) : Prop where
  first : narrative.tells entry = true
  behind : ∀ name node, (name, node) ∈ narrative.roster →
    graph.node? node.id = some node ∧ graph.Reaches entry node.id
  sound : graph.Sound narrative
  complete : ∀ name node, (name, node) ∈ narrative.roster →
    ∀ done callee later, graph.callees node.id = done ++ callee :: later →
      graph.Narrated narrative node.id done callee

theorem approach_entry {entry : Node} (found : graph.node? entry.id = some entry) (start : entry.kind = .start) :
    graph.Approach entry.id [] entry.id {} where
  trail := ⟨.nil, .nil, nofun, nofun, nofun, nofun, nofun, nofun⟩
  behind := .refl
  call := nofun
  single _ node located := by
    obtain rfl := Option.some.inj (found.symm.trans located)
    simp [start, Kind.duplicable]
  crowded := nofun

/-- The walk of a narrative that came about: it began with nothing told and no call open. -/
theorem Consistent.visited (consistent : graph.Consistent) {entry : Node} (first : graph.entry? = some entry)
    {narrative : Narrative} (told : graph.narrate = .ok narrative) :
    ∃ visit walk, graph.visit graph.shared [] entry.id {} = .ok (visit, walk) ∧ walk.told = narrative ∧
      ((graph.trailLaw entry.id).both (graph.flowLaw graph.shared)).before [] entry.id {} := by
  obtain ⟨_, visit, walk, same, visited, rfl⟩ := narrate_eq_ok told
  cases first.symm.trans same
  obtain ⟨found, start⟩ := consistent.entry?_node? first
  exact ⟨visit, walk, visited, rfl, approach_entry found start, nofun, nofun⟩

theorem Consistent.tells (consistent : graph.Consistent) {entry : Node} (first : graph.entry? = some entry)
    {narrative : Narrative} (told : graph.narrate = .ok narrative) : graph.Tells entry.id narrative := by
  obtain ⟨visit, walk, visited, rfl, begins⟩ := consistent.visited first told
  have kept := (trailLaw_kept graph graph.shared entry.id).both (flowLaw_kept graph graph.shared entry.id)
  obtain ⟨⟨trail, _⟩, sound, finished, arrival⟩ := kept.visit visited begins
  refine ⟨?_, trail.behind, sound, fun name node member => (finished name node member).resolve_left nofun⟩
  obtain ⟨index, node, placed, named, _⟩ := arrival.entry
  exact Narrative.tells_iff.2 ⟨visit.entry, node, List.mem_of_getElem? placed, named⟩

/-- A graph is told whole: what is told is what is behind the entry. -/
theorem Tells.tells_iff {entry id : String} {narrative : Narrative} (told : graph.Tells entry narrative) :
    narrative.tells id = true ↔ graph.Reaches entry id := by
  constructor
  · intro inside
    obtain ⟨name, node, member, rfl⟩ := Narrative.tells_iff.1 inside
    exact (told.behind name node member).2
  · intro path
    -- Along the path, a node that is told has each of its calls given a link.
    induction path with
    | refl => exact told.first
    | tail _ call ih =>
      obtain ⟨name, node, member, rfl⟩ := Narrative.tells_iff.1 ih
      obtain ⟨done, later, listed⟩ := List.append_of_mem call.2
      obtain ⟨_, target, goal, _, _, reached, named⟩ := told.complete name node member done _ later listed
      exact Narrative.tells_iff.2 ⟨target, goal, reached, named⟩

end Graph

end CallChart
