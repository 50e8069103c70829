import Mathlib.Data.List.Permutation
import CallChart.Proofs.Histories
import CallChart.Proofs.Narration

/-! The order in which a walk discovers nodes. It is that of a plain depth-first search, although the walk keeps no set
of visited nodes and goes through shared ones again. A node that is gone through again was closed before, so
all that it calls is told already, and going through it once more discovers nothing. -/

namespace CallChart

/-- The nodes told, each at the place where it is told first. -/
def Narrative.discovered (narrative : Narrative) : List String :=
  (narrative.occurrences.map fun occurrence => occurrence.node.id).eraseDups

namespace Narrative

variable {narrative other : Narrative}

private theorem discovered_eq_roster : narrative.discovered = (narrative.roster.map fun entry => entry.2.id).eraseDups := by
  rw [discovered, roster, List.map_map]
  rfl

theorem discovered_congr (same : narrative.roster = other.roster) : narrative.discovered = other.discovered := by
  rw [discovered_eq_roster, discovered_eq_roster, same]

theorem mem_discovered {id : String} : id ∈ narrative.discovered ↔ narrative.tells id = true := by
  simp [discovered, tells]

theorem discovered_of_roster {name : String} {node : Node} (told : other.roster = narrative.roster ++ [(name, node)]) :
    other.discovered =
      if narrative.tells node.id then narrative.discovered else narrative.discovered ++ [node.id] := by
  have member : node.id ∈ narrative.roster.map (fun entry => entry.2.id) ↔ narrative.tells node.id = true := by
    rw [← mem_discovered, discovered_eq_roster, List.mem_eraseDups]
  rw [discovered_eq_roster, told, List.map_append, List.eraseDups_append, ← discovered_eq_roster]
  split
  · next known => simp [List.removeAll, member.2 known]
  · next unknown =>
    have absent : node.id ∉ narrative.roster.map fun entry => entry.2.id := fun inside => unknown (member.1 inside)
    simp [List.removeAll, absent, List.eraseDups_cons]

end Narrative

namespace Graph

/-- Depth-first search with one list of visited ids, which it extends. Ids are taken in turn. One that is visited is
passed over; any other is visited, and then all that it calls, before the next one is taken. -/
inductive DepthFirst (graph : Graph) : List String → List String → List String → Prop where
  | done (visited : List String) : DepthFirst graph [] visited visited
  | known {id : String} {rest visited order : List String} (member : id ∈ visited)
      (after : DepthFirst graph rest visited order) : DepthFirst graph (id :: rest) visited order
  | fresh {id : String} {rest visited middle order : List String} (node : graph.contains id = true)
      (new : id ∉ visited) (below : DepthFirst graph (graph.callees id) (visited ++ [id]) middle)
      (after : DepthFirst graph rest middle order) : DepthFirst graph (id :: rest) visited order

variable {graph : Graph} {shared : List String} {root : String}

namespace DepthFirst

theorem unique {todo visited order other : List String} (first : graph.DepthFirst todo visited order)
    (second : graph.DepthFirst todo visited other) : order = other := by
  induction first generalizing other with
  | done =>
    cases second
    rfl
  | known member _ ih =>
    cases second with
    | known _ after => exact ih after
    | fresh _ new => exact absurd member new
  | fresh _ new _ _ below after =>
    cases second with
    | known member => exact absurd member new
    | fresh _ _ inner later =>
      cases below inner
      exact after later

theorem append {todo rest visited middle order : List String} (first : graph.DepthFirst todo visited middle)
    (second : graph.DepthFirst rest middle order) : graph.DepthFirst (todo ++ rest) visited order := by
  induction first with
  | done => exact second
  | known member _ ih => exact .known member (ih second)
  | fresh node new below _ _ ih => exact .fresh node new below (ih second)

theorem eq_of_mem {id : String} {visited order : List String} (search : graph.DepthFirst [id] visited order)
    (member : id ∈ visited) : order = visited :=
  search.unique (.known member (.done visited))

end DepthFirst

/-- What a node calls is told once the node has been told and is not open any more. -/
private theorem Finished.tells_callee {chain : List String} {narrative : Narrative} {id callee : String}
    (finished : graph.Finished chain narrative) (told : narrative.tells id = true) (closed : id ∉ chain)
    (called : callee ∈ graph.callees id) : narrative.tells callee = true := by
  obtain ⟨name, node, member, rfl⟩ := Narrative.tells_iff.1 told
  obtain ⟨done, later, listed⟩ := List.append_of_mem called
  have narrated := (finished name node member).resolve_left closed
  obtain ⟨_, target, goal, _, _, reached, named⟩ := narrated done callee later listed
  exact Narrative.tells_iff.2 ⟨target, goal, reached, named⟩

inductive Discovers (graph : Graph) (opening : Opening) (done : List String) (narrative : Narrative) : Prop where
  /-- The node was told before, and all that it calls as well. -/
  | again (told : opening.start.told.tells opening.node.id = true)
      (callees : ∀ callee ∈ graph.callees opening.node.id, opening.start.told.tells callee = true)
      (same : narrative.discovered = opening.start.told.discovered) : Discovers graph opening done narrative
  | newly (untold : opening.start.told.tells opening.node.id = false)
      (search : graph.DepthFirst done (opening.start.told.discovered ++ [opening.node.id]) narrative.discovered) :
      Discovers graph opening done narrative

def discoveryLaw (graph : Graph) : Law where
  before _ _ _ := True
  amid opening done _ walk := graph.Discovers opening done walk.told
  after _ id walk _ later := graph.DepthFirst [id] walk.told.discovered later.told.discovered

private theorem discovers_opened {opening : Opening} (fresh : opening.Fresh graph)
    (finished : graph.Finished opening.chain opening.start.told) :
    graph.Discovers opening [] (opening.begun shared).told := by
  have roster : (opening.begun shared).told.roster = _ := Opening.roster_begun
  have grown := Narrative.discovered_of_roster roster
  cases told : opening.start.told.tells opening.node.id with
  | true =>
    refine .again told (fun callee called => finished.tells_callee told fresh.closed called) ?_
    rw [grown, told]
    rfl
  | false =>
    refine .newly told ?_
    rw [grown, told]
    exact .done _

private theorem discovers_step {opening : Opening} {done later : List String} {callee : String}
    {walk told : Walk} {narrative : Narrative} (listed : graph.callees opening.node.id = done ++ callee :: later)
    (roster : narrative.roster = told.told.roster) (discovers : graph.Discovers opening done walk.told)
    (search : graph.DepthFirst [callee] walk.told.discovered told.told.discovered) :
    graph.Discovers opening (done ++ [callee]) narrative := by
  rw [← Narrative.discovered_congr roster] at search
  cases discovers with
  | again known callees same =>
    refine .again known callees ?_
    rw [same] at search
    apply search.eq_of_mem
    rw [Narrative.mem_discovered]
    apply callees
    simp [listed]
  | newly untold before => exact .newly untold (before.append search)

private theorem discovers_finished {opening : Opening} {narrative other : Narrative} (fresh : opening.Fresh graph)
    (roster : other.roster = narrative.roster)
    (discovers : graph.Discovers opening (graph.callees opening.node.id) narrative) :
    graph.DepthFirst [opening.node.id] opening.start.told.discovered other.discovered := by
  rw [Narrative.discovered_congr roster]
  cases discovers with
  | again told _ same =>
    rw [same]
    exact .known (Narrative.mem_discovered.2 told) (.done _)
  | newly untold search =>
    refine .fresh (contains_iff.2 ⟨_, fresh.found⟩) ?_ search (.done _)
    rw [Narrative.mem_discovered, untold]
    exact Bool.false_ne_true

theorem discoveryLaw_kept (graph : Graph) (shared : List String) (root : String) :
    Law.Kept graph shared ((graph.trailLaw root).both (graph.flowLaw shared)) graph.discoveryLaw where
  settled _ _ told _ _ := .known (Narrative.mem_discovered.2 told) (.done _)
  repeated {_ node walk} _ _ inside base _ := by
    have told := base.1.trail.told node.id inside
    have roster : (walk.tell (walk.nextId shared node) node).told.roster = _ := Walk.roster_tell _ _
    simp only [discoveryLaw, Narrative.discovered_of_roster roster, told, if_true]
    exact .known (Narrative.mem_discovered.2 told) (.done _)
  reused _ _ _ known base _ := by
    obtain ⟨_, node, member, named, _⟩ := base.1.trail.notes _ _ _ known
    exact .known (Narrative.mem_discovered.2 (Narrative.tells_iff.2 ⟨_, node, member, named⟩)) (.done _)
  opened fresh base _ := discovers_opened fresh base.2.2
  called _ _ _ _ := trivial
  branched _ listed _ _ _ discovers search := discovers_step listed (Narrative.roster_link _ _) discovers search
  sequenced _ listed _ _ _ discovers search := discovers_step listed (Narrative.roster_linkAll _ _) discovers search
  finished fresh _ discovers := discovers_finished fresh roster_finish discovers

/-- Nodes are told first in the order in which a depth-first search from the entry visits them. -/
theorem Consistent.depthFirst (consistent : graph.Consistent) {entry : Node} (first : graph.entry? = some entry)
    {narrative : Narrative} (told : graph.narrate = .ok narrative) :
    graph.DepthFirst [entry.id] [] narrative.discovered := by
  obtain ⟨_, walk, visited, rfl, begins⟩ := consistent.visited first told
  have below := (trailLaw_kept graph graph.shared entry.id).both (flowLaw_kept graph graph.shared entry.id)
  have kept := below.both (discoveryLaw_kept graph graph.shared entry.id)
  exact (kept.visit visited ⟨begins, trivial⟩).2

/-- A walk from an entry fails only at an id that no node has and that a node behind the entry calls. -/
theorem narrate_eq_error {entry : Node} (first : graph.entry? = some entry) {fault : GraphError}
    (failed : graph.narrate = .error fault) :
    ∃ caller missing, fault = .unknownCallee missing ∧ graph.Reaches entry.id caller ∧ graph.Calls caller missing ∧
      graph.contains missing = false := by
  have stuck : graph.visit graph.shared [] entry.id {} = .error fault := by
    unfold Graph.narrate at failed
    rw [first] at failed
    cases visited : graph.visit graph.shared [] entry.id {} with
    | error other => simpa [visited, Except.map] using failed
    | ok result => simp [visited, Except.map] at failed
  obtain ⟨missing, rfl, absent, path⟩ := visit_error stuck
  have unknown : graph.contains missing = false := by simp [Graph.contains, absent]
  rcases Relation.ReflTransGen.cases_tail path with same | ⟨caller, reached, call⟩
  · rw [same, contains_entry first] at unknown
    cases unknown
  · exact ⟨caller, missing, rfl, reached, call, unknown⟩

theorem entry?_eq_none_iff : graph.entry? = none ↔ ∀ node ∈ graph.nodes, node.kind ≠ .start := by
  unfold entry?
  simp [List.find?_eq_none]

/-- The walk fails for want of a start node or of a node that is called behind the first one, and for no other reason.
Otherwise it comes on the nodes in the order of a depth-first search. -/
theorem narrate_discovers (built : graph.Built) :
    (graph.narrate = .error .noStart ↔ ∀ node ∈ graph.nodes, node.kind ≠ .start) ∧
      ∀ entry, graph.entry? = some entry →
        ((∃ narrative, graph.narrate = .ok narrative) ↔ ∀ id, graph.Reaches entry.id id → graph.contains id = true) ∧
        (∀ fault, graph.narrate = .error fault → ∃ caller missing, fault = .unknownCallee missing ∧
          graph.Reaches entry.id caller ∧ graph.Calls caller missing ∧ graph.contains missing = false) ∧
        ∀ narrative, graph.narrate = .ok narrative →
          ∀ order, graph.DepthFirst [entry.id] [] order ↔ order = narrative.discovered := by
  have consistent := built.consistent
  constructor
  · rw [← entry?_eq_none_iff]
    cases first : graph.entry? with
    | none => simp [Graph.narrate, first]
    | some entry =>
      refine iff_of_false (fun failed => ?_) (by simp)
      obtain ⟨_, _, other, _⟩ := narrate_eq_error first failed
      cases other
  intro entry first
  refine ⟨⟨?_, ?_⟩, fun _ => narrate_eq_error first, ?_⟩
  · intro succeeds id path
    obtain ⟨narrative, told⟩ := succeeds
    have tells := consistent.tells first told
    obtain ⟨name, node, member, rfl⟩ := Narrative.tells_iff.1 (tells.tells_iff.2 path)
    exact contains_iff.2 ⟨node, (tells.behind name node member).1⟩
  · intro known
    cases told : graph.narrate with
    | ok narrative => exact ⟨narrative, rfl⟩
    | error fault =>
      obtain ⟨caller, missing, _, reached, call, unknown⟩ := narrate_eq_error first told
      simp [known missing (reached.tail call)] at unknown
  · intro narrative told order
    have search := consistent.depthFirst first told
    constructor
    · exact fun other => other.unique search
    · rintro rfl
      exact search

/-- Two paragraphs that call each other, one of which is called from elsewhere once both are closed. Two ids that are
no nodes are linked as well. -/
def winding : List Edit := [
  .brief "MAIN" .start, .brief "OPEN" .normal, .brief "LOCK" .normal, .brief "SAVE" .normal, .link "MAIN" "OPEN",
  .link "MAIN" "SAVE", .link "OPEN" "LOCK", .link "LOCK" "OPEN", .link "SAVE" "LOCK", .link "OLD" "GONE"]

theorem winding_discovers :
    ∃ graph entry narrative, edited winding = graph ∧ graph.Built ∧ graph.entry? = some entry ∧
      graph.narrate = .ok narrative ∧
      (narrative.occurrences.map fun occurrence => occurrence.node.id) =
        ["MAIN", "OPEN", "LOCK", "OPEN", "SAVE", "LOCK", "OPEN", "LOCK"] ∧
      graph.DepthFirst [entry.id] [] ["MAIN", "OPEN", "LOCK", "SAVE"] := by
  obtain ⟨graph, made⟩ : ∃ graph, edited winding = graph := ⟨_, rfl⟩
  have built : graph.Built := made ▸ built_edited winding
  obtain ⟨entry, first⟩ : ∃ entry, graph.entry? = some entry := by
    subst made
    exact ⟨_, rfl⟩
  have shown : (edited winding).narrate.map (fun narrative => narrative.occurrences.map fun occurrence =>
      occurrence.node.id) = .ok ["MAIN", "OPEN", "LOCK", "OPEN", "SAVE", "LOCK", "OPEN", "LOCK"] := by cbv
  rw [made] at shown
  obtain ⟨narrative, told, listed⟩ := exists_narrative shown
  refine ⟨graph, entry, narrative, made, built, first, told, listed, ?_⟩
  rw [((narrate_discovers built).2 entry first).2.2 narrative told, Narrative.discovered, listed]
  decide

end Graph

end CallChart
