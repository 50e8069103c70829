import CallChart.Proofs.Multiplicity
import CallChart.Proofs.Naming
import CallChart.Proofs.Searches

/-! Which nodes get numbered copies. Whether a node counts as shared is decided before the walk, from the numbers of
callers alone, and yet the walk tells every other node once. Such a node has one caller at most, and that caller
is not shared either unless it stops the sharing; so it is opened once, and then it tells the node once. -/

namespace CallChart

def Narrative.namesOf (narrative : Narrative) (id : String) : List String :=
  (narrative.occurrences.filter fun occurrence => occurrence.node.id = id).map Occurrence.id

namespace Narrative

variable {narrative : Narrative}

theorem length_namesOf (id : String) : (narrative.namesOf id).length = narrative.tellings id := by
  rw [namesOf, List.length_map, tellings, List.countP_eq_length_filter]

theorem namesOf_eq_roster (id : String) :
    narrative.namesOf id = (narrative.roster.filter fun entry => entry.2.id = id).map Prod.fst := by
  rw [namesOf, roster, List.filter_map, List.map_map]
  rfl

theorem mem_namesOf {id name : String} :
    name ∈ narrative.namesOf id ↔ ∃ node, (name, node) ∈ narrative.roster ∧ node.id = id := by
  simp [namesOf_eq_roster]

end Narrative

namespace Graph

variable {graph : Graph} {shared : List String} {root : String}

section Shared

theorem Consistent.duplicable_of_shared (consistent : graph.Consistent) {id : String} (member : id ∈ graph.shared) :
    ∃ node, graph.node? id = some node ∧ node.kind.duplicable = true := by
  obtain ⟨node, found, kind⟩ := consistent.repeatable_of_shared member
  exact ⟨node, found, duplicable_iff.2 kind⟩

theorem Consistent.shared_of_call (consistent : graph.Consistent) {caller : String} {node : Node}
    (member : caller ∈ graph.shared) (call : graph.Calls caller node.id) (found : graph.node? node.id = some node)
    (duplicable : node.kind.duplicable = true) : node.id ∈ graph.shared :=
  consistent.spreading_shared.callees caller node.id member call.2 ⟨node, found, duplicable_iff.1 duplicable⟩

theorem Consistent.callers_le_one (consistent : graph.Consistent) {node : Node} (found : graph.node? node.id = some node)
    (duplicable : node.kind.duplicable = true) (unshared : node.id ∉ graph.shared) : (graph.callers node.id).length ≤ 1 := by
  by_contra several
  exact unshared (consistent.spreading_shared.several _ ⟨node, found, duplicable_iff.1 duplicable⟩ (by omega))

end Shared

section Once

variable {chain : List String} {walk : Walk}

/-- Without notes of a node, it is opened only as one that is told once. -/
private theorem origins_eq_nil (trail : graph.Trail root chain walk) {node : Node} (found : graph.node? node.id = some node)
    (single : node.kind.duplicable = false) : walk.origins node.id = [] := by
  apply List.eq_nil_iff_forall_not_mem.2
  intro caller member
  obtain ⟨_, other, known, duplicable⟩ := trail.calls_of_noted (Walk.mem_origins.1 member)
  obtain rfl := Option.some.inj (found.symm.trans known)
  rw [single] at duplicable
  cases duplicable

theorem Trail.openings_le_one (consistent : graph.Consistent) (trail : graph.Trail root chain walk)
    (once : ∀ id, singles walk.told.roster id ≤ 1) {id : String} (unshared : id ∉ graph.shared) : walk.openings id ≤ 1 := by
  cases found : graph.node? id with
  | none =>
    rw [trail.openings_eq_zero (by simp [contains, found])]
    exact Nat.zero_le 1
  | some node =>
    obtain ⟨_, rfl⟩ := node?_some found
    cases duplicable : node.kind.duplicable with
    | true =>
      have opened := trail.openings_le consistent once node.id
      have few := consistent.callers_le_one found duplicable unshared
      omega
    | false =>
      rw [Walk.openings, origins_eq_nil trail found duplicable]
      simpa using once node.id

/-- What may be told once only is told as often as it is counted as such. -/
private theorem tellings_eq_singles (trail : graph.Trail root chain walk) {node : Node}
    (found : graph.node? node.id = some node) (single : node.kind.duplicable = false) :
    walk.told.tellings node.id = singles walk.told.roster node.id := by
  rw [Narrative.tellings_eq_count, List.count, List.countP_map, singles]
  apply List.countP_congr
  intro entry member
  by_cases here : entry.2.id = node.id
  · have same := (trail.behind entry.1 entry.2 member).1
    rw [here, found] at same
    simp [← Option.some.inj same, single]
  · simp [here]

/-- Nodes that are not shared are told once. -/
theorem Consistent.tellings_le_one (consistent : graph.Consistent) {narrative : Narrative}
    (told : graph.narrate = .ok narrative) {node : Node} (found : graph.node? node.id = some node)
    (unshared : node.id ∉ graph.shared) : narrative.tellings node.id ≤ 1 := by
  obtain ⟨entry, _, _, first, _⟩ := narrate_eq_ok told
  obtain ⟨walk, rfl, trail, once, bound⟩ := consistent.tellings_le first told
  cases duplicable : node.kind.duplicable with
  | false =>
    rw [tellings_eq_singles trail found duplicable]
    exact once node.id
  | true =>
    have other : node.id ≠ entry.id := by
      intro same
      obtain ⟨start, kind⟩ := consistent.entry?_node? first
      rw [← same, found] at start
      simp [Option.some.inj start, kind, Kind.duplicable] at duplicable
    have none : [entry.id].count node.id = 0 := List.count_eq_zero.2 (by simpa using other)
    have opened : ∀ caller ∈ graph.callers node.id, walk.openings caller ≤ 1 := by
      intro caller listed
      apply trail.openings_le_one consistent once
      intro inside
      obtain ⟨parent, known, _⟩ := consistent.duplicable_of_shared inside
      have call : graph.Calls caller node.id := consistent.calls_iff_mem_callers.2 ⟨contains_iff.2 ⟨parent, known⟩, listed⟩
      exact unshared (consistent.shared_of_call inside call found duplicable)
    have allowed : graph.allowance walk node.id ≤ 1 := by
      have few := consistent.callers_le_one found duplicable unshared
      rw [allowance]
      cases callers : graph.callers node.id with
      | nil => exact Nat.zero_le 1
      | cons caller rest =>
        obtain rfl : rest = [] := by simpa [callers] using few
        simpa using opened caller (by simp [callers])
    have least := bound node.id
    omega

end Once

/-- How names depend on what counts as shared: a shared node never goes by its own id, and any other node that is told
has its own id in use. -/
structure Titled (shared : List String) (roster : List (String × Node)) : Prop where
  renamed : ∀ name node, (name, node) ∈ roster → node.id ∈ shared → node.kind.duplicable = true → name ≠ node.id
  own : ∀ name node, (name, node) ∈ roster → node.id ∉ shared → node.id ∈ roster.map Prod.fst

private theorem titled_tell {walk : Walk} (node : Node) (titled : Titled shared walk.told.roster) :
    Titled shared (walk.told.roster ++ [(walk.nextId shared node, node)]) := by
  have used : walk.told.contains node.id = true ↔ node.id ∈ walk.told.roster.map Prod.fst := by
    rw [Narrative.contains_iff, Narrative.ids_eq_roster]
  constructor
  · intro name other member inside duplicable
    rcases List.mem_append.1 member with old | new
    · exact titled.renamed name other old inside duplicable
    · cases List.mem_singleton.1 new
      rw [Walk.nextId, if_neg (by simp [inside, duplicable])]
      exact copyName_ne _ _
  · intro name other member outside
    rw [List.map_append, List.mem_append]
    rcases List.mem_append.1 member with old | new
    · exact Or.inl (titled.own name other old outside)
    · cases List.mem_singleton.1 new
      unfold Walk.nextId
      split
      · exact Or.inr (List.mem_singleton.2 rfl)
      · next numbered =>
        simp only [outside, not_false_eq_true, decide_true, Bool.and_true, Bool.or_eq_true, Bool.not_eq_true', not_or,
          Bool.not_eq_false] at numbered
        exact Or.inl (used.1 numbered.2)

theorem titled_of_narrate {narrative : Narrative} (told : graph.narrate = .ok narrative) :
    Titled graph.shared narrative.roster := by
  obtain ⟨entry, visit, walk, _, visited, rfl⟩ := narrate_eq_ok told
  have kept : Law.Kept graph graph.shared .any (.ofRoster (Titled graph.shared)) :=
    Law.ofRoster_kept fun walk node _ _ titled => titled_tell node titled
  exact kept.visit visited ⟨nofun, nofun⟩

/-- An id that a narrative uses is the own id of what it tells, where names are distinct. -/
theorem Named.node_of_own {roster : List (String × Node)} (named : graph.Named roster) (distinct : graph.DistinctNames)
    {name : String} {node : Node} (known : graph.contains name = true) (member : (name, node) ∈ roster) : node.id = name := by
  by_contra other
  obtain ⟨number, positive, _, copy⟩ := named.number member (Ne.symm other)
  exact distinct name node.id known (named.known name node member) number positive copy

/-- The copies of a shared node are all of its tellings. -/
private theorem namesOf_shared {narrative : Narrative} (named : graph.Named narrative.roster)
    (titled : Titled graph.shared narrative.roster)
    (again : ∀ name node, (name, node) ∈ narrative.roster → node.id ∈ graph.shared → node.kind.duplicable = true)
    {id : String} (inside : id ∈ graph.shared) :
    narrative.namesOf id = (List.range (narrative.tellings id)).map fun index => copyName id (index + 1) := by
  have all : (narrative.roster.filter fun entry => entry.2.id = id) = copies narrative.roster id := by
    apply List.filter_congr
    intro entry member
    by_cases here : entry.2.id = id
    · have shared : entry.2.id ∈ graph.shared := here ▸ inside
      have renamed := titled.renamed entry.1 entry.2 member shared (again entry.1 entry.2 member shared)
      rw [here] at renamed
      simp [here, renamed]
    · simp [here]
  have numbered := named.numbered id
  rw [← all, ← Narrative.namesOf_eq_roster] at numbered
  rw [numbered, ← Narrative.length_namesOf, Narrative.namesOf_eq_roster, List.length_map]

/-- Occurrences are of nodes of the graph as they stand there. A start node, a loop or a node that is not shared is told
once and under its own id; a shared node is told under its id with the numbers from one on, in order. -/
theorem copies_numbered (built : graph.Built) (distinct : graph.DistinctNames) {narrative : Narrative}
    (told : graph.narrate = .ok narrative) :
    (∀ occurrence ∈ narrative.occurrences, graph.node? occurrence.node.id = some occurrence.node) ∧
      ∀ node ∈ graph.nodes, narrative.tells node.id = true →
        ((node.kind = .start ∨ node.kind = .loop ∨ node.id ∉ graph.shared) → narrative.namesOf node.id = [node.id]) ∧
        (node.id ∈ graph.shared → narrative.namesOf node.id =
          (List.range (narrative.tellings node.id)).map fun index => copyName node.id (index + 1)) := by
  have consistent := built.consistent
  have named := named_of_narrate told
  have titled := titled_of_narrate told
  obtain ⟨entry, _, _, first, _⟩ := narrate_eq_ok told
  have behind := (consistent.tells first told).behind
  refine ⟨fun occurrence member => (behind _ _ (List.mem_map_of_mem member)).1, ?_⟩
  intro node listed tells
  have found := node?_of_mem consistent.distinct listed
  constructor
  · intro single
    have unshared : node.id ∉ graph.shared := by
      intro inside
      obtain ⟨other, known, duplicable⟩ := consistent.duplicable_of_shared inside
      obtain rfl := Option.some.inj (found.symm.trans known)
      rcases single with start | loop | outside
      · simp [start, Kind.duplicable] at duplicable
      · simp [loop, Kind.duplicable] at duplicable
      · exact outside inside
    obtain ⟨name, other, member, same⟩ := Narrative.tells_iff.1 tells
    have used := titled.own name other member (same ▸ unshared)
    rw [same] at used
    obtain ⟨⟨_, owner⟩, entered, rfl⟩ := List.mem_map.1 used
    have owned := named.node_of_own distinct (contains_iff.2 ⟨node, found⟩) entered
    have inside : node.id ∈ narrative.namesOf node.id := Narrative.mem_namesOf.2 ⟨owner, entered, owned⟩
    have once := consistent.tellings_le_one told found unshared
    rw [← Narrative.length_namesOf] at once
    obtain ⟨only, alone⟩ := List.length_eq_one_iff.1 (Nat.le_antisymm once (List.length_pos_of_mem inside))
    rw [alone, List.mem_singleton] at inside
    rw [alone, inside]
  · intro inside
    apply namesOf_shared named titled ?_ inside
    intro name other member shared
    obtain ⟨twin, known, duplicable⟩ := consistent.duplicable_of_shared shared
    rw [(behind name other member).1] at known
    rw [Option.some.inj known]
    exact duplicable

/-- A loop around two paragraphs, and a paragraph that calls itself and one of the two. -/
def recurring : GraphDoc := ⟨[
  .brief "MAIN" .start [] ["LOOP", "SEND"],
  .brief "LOOP" .loop ["MAIN"] ["READ", "SAVE"],
  .brief "READ" .normal ["LOOP"] [],
  .brief "SAVE" .normal ["LOOP", "SEND"] [],
  .brief "SEND" .normal ["MAIN", "SEND"] ["SAVE", "SEND"]]⟩

theorem recurring_numbered :
    ∃ graph narrative, recurring.toGraph = .ok graph ∧ graph.Built ∧ graph.DistinctNames ∧
      graph.narrate = .ok narrative ∧ "READ" ∉ graph.shared ∧ "SEND" ∈ graph.shared ∧
      narrative.namesOf "LOOP" = ["LOOP"] ∧ narrative.namesOf "READ" = ["READ"] ∧
      narrative.namesOf "SEND" = ["SEND_1", "SEND_2"] := by
  obtain ⟨graph, read⟩ : ∃ graph, recurring.toGraph = .ok graph := ⟨_, rfl⟩
  obtain ⟨built, checked⟩ := GraphDoc.built_toGraph read
  obtain ⟨narrative, told⟩ := (check_eq_ok_iff.1 checked).narrate
  have nodes : recurring.toGraph.map Graph.nodes = .ok (recurring.nodes.map NodeDoc.node) := rfl
  have shared : recurring.toGraph.map Graph.shared = .ok ["SEND", "SAVE"] := by cbv
  have shown : (recurring.toGraph.bind Graph.narrate).map (fun narrative =>
      (["LOOP", "READ", "SEND"].map narrative.tells, narrative.tellings "SEND")) = .ok ([true, true, true], 2) := by cbv
  simp only [read, told, Except.map, Except.bind, Except.ok.injEq, Prod.mk.injEq, List.map_cons, List.map_nil,
    List.cons.injEq, and_true] at nodes shared shown
  obtain ⟨⟨loop, paragraph, send⟩, twice⟩ := shown
  have distinct : graph.DistinctNames := distinctNames_of_plain (by rw [ids, nodes]; decide)
  obtain ⟨_, names⟩ := copies_numbered built distinct told
  have outside : "READ" ∉ graph.shared := by rw [shared]; decide
  have inside : "SEND" ∈ graph.shared := by rw [shared]; decide
  have numbered : narrative.namesOf "SEND" =
      (List.range (narrative.tellings "SEND")).map fun index => copyName "SEND" (index + 1) :=
    (names _ (by rw [nodes]; exact .tail _ (.tail _ (.tail _ (.tail _ (.head _))))) send).2 inside
  refine ⟨graph, narrative, read, built, distinct, told, outside, inside, ?_, ?_, ?_⟩
  · exact (names _ (by rw [nodes]; exact .tail _ (.head _)) loop).1 (Or.inr (Or.inl rfl))
  · exact (names _ (by rw [nodes]; exact .tail _ (.tail _ (.head _))) paragraph).1 (Or.inr (Or.inr outside))
  · rw [numbered, twice]
    rfl

end Graph

end CallChart
