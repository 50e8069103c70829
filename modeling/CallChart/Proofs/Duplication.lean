import CallChart.Proofs.Multiplicity

/-! The exact number of copies. A node that lies on no circle of calls is never met while it is open, so it is told only when
a call to it is followed for the first time. Every node that is told gets opened, and then all of its calls are
followed or have been; so there is one copy for each caller that is reached. -/

namespace CallChart

theorem Narrative.tells_of_roster {narrative other : Narrative} {name id : String} {node : Node}
    (told : other.roster = narrative.roster ++ [(name, node)]) (tells : other.tells id = true) :
    narrative.tells id = true ∨ id = node.id := by
  obtain ⟨title, known, member, rfl⟩ := Narrative.tells_iff.1 tells
  rw [told, List.mem_append] at member
  rcases member with old | new
  · exact Or.inl (Narrative.tells_iff.2 ⟨title, known, old, rfl⟩)
  · cases List.mem_singleton.1 new
    exact Or.inr rfl

namespace Graph

variable {graph : Graph} {shared chain : List String} {root target : String} {walk : Walk}

/-- The copies of a node are those that the walk has notes of, and every caller that was told and is not open any more
has such a note. -/
structure Tallied (graph : Graph) (target : String) (chain : List String) (walk : Walk) : Prop where
  counted : walk.told.tellings target = (walk.origins target).length
  covered : ∀ id, walk.told.tells id = true → target ∈ graph.callees id → id ∈ chain ∨ walk.Noted target id

def copyLaw (graph : Graph) (target : String) : Law where
  before chain _ walk := graph.Tallied target chain walk
  amid opening done _ walk :=
    graph.Tallied target (opening.node.id :: opening.chain) walk ∧
      (target ∈ done → walk.Noted target opening.node.id) ∧
      (opening.node.id = target → ∀ caller ∈ opening.chain.head?, walk.Noted target caller)
  after chain id _ _ later :=
    graph.Tallied target chain later ∧ (id = target → ∀ caller ∈ chain.head?, later.Noted target caller)

private theorem Tallied.relink (tallied : graph.Tallied target chain walk) {other : Walk}
    (roster : other.told.roster = walk.told.roster) (reached : other.reached = walk.reached) :
    graph.Tallied target chain other := by
  refine ⟨?_, ?_⟩
  · rw [Narrative.tellings_congr roster, tallied.counted, Walk.origins, Walk.origins, reached]
  · intro id told called
    rw [Walk.Noted, reached]
    apply tallied.covered id ?_ called
    rw [Narrative.tells_iff, ← roster, ← Narrative.tells_iff]
    exact told

/-- An open node that is called again lies on a circle. -/
private theorem not_open {id : String} (acyclic : ¬ graph.LeadsTo target target)
    (approach : graph.Approach root chain id walk) (inside : id ∈ chain) : id ≠ target := by
  intro same
  subst same
  cases head : chain.head? with
  | none =>
    rw [List.head?_eq_none_iff.1 head] at inside
    cases inside
  | some caller =>
    exact acyclic (Relation.TransGen.tail' (approach.trail.reaches_head inside head) (approach.call caller head))

private theorem tallied_repeated {node : Node} {name : String} (tallied : graph.Tallied target chain walk)
    (other : node.id ≠ target) (inside : node.id ∈ chain) : graph.Tallied target chain (walk.tell name node) := by
  have roster : (walk.tell name node).told.roster = _ := Walk.roster_tell name node
  refine ⟨?_, ?_⟩
  · rw [Narrative.tellings_of_roster roster, List.count_singleton, if_neg (by simpa using other)]
    exact tallied.counted
  · intro id told called
    rcases Narrative.tells_of_roster roster told with old | rfl
    · exact tallied.covered id old called
    · exact Or.inl inside

private theorem tallied_opened {opening : Opening} (fresh : opening.Fresh graph)
    (duplicable : ∀ node, graph.node? target = some node → node.kind.duplicable = true)
    (approach : graph.Approach root opening.chain opening.node.id opening.start)
    (tallied : graph.Tallied target opening.chain opening.start) :
    graph.Tallied target (opening.node.id :: opening.chain) (opening.begun shared) := by
  have roster : (opening.begun shared).told.roster = _ := Opening.roster_begun
  refine ⟨?_, ?_⟩
  · rw [Narrative.tellings_of_roster roster, tallied.counted,
      Opening.origins_begun shared fresh fun none => approach.single none opening.node fresh.found]
    by_cases here : opening.node.id = target
    · rw [duplicable opening.node (here ▸ fresh.found), if_pos rfl]
    · have none : [opening.node.id].count target = 0 := List.count_eq_zero.2 (by simpa using Ne.symm here)
      rw [none, ite_self]
  · intro id told called
    rcases Narrative.tells_of_roster roster told with old | rfl
    · rcases tallied.covered id old called with inside | noted
      · exact Or.inl (List.mem_cons_of_mem _ inside)
      · exact Or.inr (Walk.noted_note.2 (Or.inl noted))
    · exact Or.inl List.mem_cons_self

private theorem copy_step {opening : Opening} {done : List String} {callee : String} {ends last : Ends}
    {told relinked : Walk} {visit : Visit}
    (roster : relinked.told.roster = told.told.roster) (reached : relinked.reached = told.reached)
    (grown : walk.Extends told) (holds : (graph.copyLaw target).amid opening done ends walk)
    (after : (graph.copyLaw target).after (opening.node.id :: opening.chain) callee walk visit told) :
    (graph.copyLaw target).amid opening (done ++ [callee]) last relinked := by
  obtain ⟨_, noted, led⟩ := holds
  obtain ⟨tallied, arrived⟩ := after
  have same : ∀ caller, told.Noted target caller → relinked.Noted target caller := by
    intro caller known
    rw [Walk.Noted, reached]
    exact known
  refine ⟨tallied.relink roster reached, ?_, ?_⟩
  · intro member
    rcases List.mem_append.1 member with old | new
    · exact same _ (grown.noted _ _ (noted old))
    · exact same _ (arrived (List.mem_singleton.1 new).symm opening.node.id rfl)
  · intro here caller head
    exact same _ (grown.noted _ _ (led here caller head))

theorem copyLaw_kept (graph : Graph) (shared : List String) (root : String)
    (duplicable : ∀ node, graph.node? target = some node → node.kind.duplicable = true)
    (acyclic : ¬ graph.LeadsTo target target) :
    Law.Kept graph shared (graph.trailLaw root) (graph.copyLaw target) where
  settled {_ node _} found single _ _ tallied := by
    refine ⟨tallied, fun here => ?_⟩
    rw [duplicable node (here ▸ found)] at single
    cases single
  repeated _ _ inside approach tallied := by
    have other := not_open acyclic approach inside
    exact ⟨tallied_repeated tallied other inside, fun here => absurd here other⟩
  reused {caller _ _ node _} _ _ _ known _ tallied := by
    refine ⟨tallied, fun here other head => ?_⟩
    cases head
    rw [← here]
    exact Walk.find?_isSome_iff_noted.1 (by simp [known])
  opened {opening} fresh approach tallied := by
    refine ⟨tallied_opened fresh duplicable approach tallied, nofun, fun here caller head => ?_⟩
    exact Walk.noted_note.2 (Or.inr ⟨here.symm, head, duplicable opening.node (here ▸ fresh.found)⟩)
  called _ _ _ holds := holds.1
  branched _ _ _ _ base holds after := copy_step (Narrative.roster_link _ _) rfl base.2.1 holds after
  sequenced _ _ _ _ base holds after := copy_step (Narrative.roster_linkAll _ _) rfl base.2.1 holds after
  finished {opening _ walk} _ _ holds := by
    obtain ⟨tallied, noted, led⟩ := holds
    have closed : graph.Tallied target opening.chain walk := by
      refine ⟨tallied.counted, fun id told called => ?_⟩
      rcases tallied.covered id told called with inside | known
      · rcases List.mem_cons.1 inside with rfl | inside
        · exact Or.inr (noted called)
        · exact Or.inl inside
      · exact Or.inr known
    refine ⟨closed.relink roster_finish reached_finish, fun here caller head => ?_⟩
    rw [Walk.Noted, reached_finish]
    exact led here caller head

/-- The notes of a node that the walk left behind are from its callers behind the entry. -/
theorem Tallied.mem_origins_iff (consistent : graph.Consistent) {narrative : Narrative}
    (tells : graph.Tells root narrative) (same : walk.told = narrative) (trail : graph.Trail root [] walk)
    (tallied : graph.Tallied target [] walk) (caller : String) :
    caller ∈ walk.origins target ↔ caller ∈ graph.callers target ∧ graph.Reaches root caller := by
  rw [Walk.mem_origins]
  constructor
  · intro noted
    refine ⟨(consistent.calls_iff_mem_callers.1 (trail.calls_of_noted noted).1).2, ?_⟩
    rw [← tells.tells_iff, ← same]
    rcases trail.followed _ _ noted with ⟨_, _, _, told⟩ | ⟨other, earlier⟩
    · exact told
    · obtain ⟨entry, known⟩ := Option.isSome_iff_exists.1 (Walk.find?_isSome_iff_noted.2 earlier)
      obtain ⟨_, node, member, named, _⟩ := trail.notes _ _ _ known
      exact Narrative.tells_iff.2 ⟨entry, node, member, named⟩
  · intro both
    obtain ⟨called, path⟩ := both
    rw [← tells.tells_iff, ← same] at path
    exact (tallied.covered caller path ((consistent.agree _ _).2 called)).resolve_left nofun

/-- A node that may be told again and lies on no circle of calls is told once for each caller behind the entry. -/
theorem tellings_eq_callers (built : graph.Built) {narrative : Narrative} (told : graph.narrate = .ok narrative)
    {entry node : Node} (first : graph.entry? = some entry) (member : node ∈ graph.nodes)
    (duplicable : node.kind.duplicable = true) (acyclic : ¬ graph.LeadsTo node.id node.id) :
    narrative.tellings node.id =
      ((graph.callers node.id).filter fun caller => graph.Reaches entry.id caller).length := by
  have consistent := built.consistent
  have again : ∀ other, graph.node? node.id = some other → other.kind.duplicable = true := by
    intro other located
    rw [node?_of_mem consistent.distinct member] at located
    rw [← Option.some.inj located]
    exact duplicable
  obtain ⟨visit, walk, visited, same, begins, _⟩ := consistent.visited first told
  have kept := (trailLaw_kept graph graph.shared entry.id).both
    (copyLaw_kept graph graph.shared entry.id again acyclic)
  obtain ⟨⟨trail, _⟩, tallied, _⟩ := kept.visit visited ⟨begins, rfl, nofun⟩
  have members := tallied.mem_origins_iff consistent (consistent.tells first told) same trail
  have callers : (graph.callers node.id).Nodup := OrderedSet.nodup _
  rw [← same, tallied.counted]
  apply List.Perm.length_eq
  apply (List.perm_ext_iff_of_nodup (walk.origins_nodup _) (callers.filter _)).2
  intro caller
  rw [members, List.mem_filter, decide_eq_true_eq]

theorem busy_copies :
    ∃ entry node narrative, (edited busy).Built ∧ (edited busy).narrate = .ok narrative ∧
      Graph.entry? (edited busy) = some entry ∧ node ∈ (edited busy).nodes ∧ node.id = "SEND" ∧
      node.kind.duplicable = true ∧ ¬ (edited busy).LeadsTo node.id node.id ∧
      (edited busy).callers "SEND" = ["LOCK", "OPEN", "OLD"] ∧ narrative.tellings "SEND" = 2 := by
  obtain ⟨narrative, told, _⟩ := narrate_busy
  obtain ⟨entry, _, _, first, _⟩ := narrate_eq_ok told
  obtain ⟨node, member, named, kind⟩ : ∃ node ∈ (edited busy).nodes, node.id = "SEND" ∧ node.kind = .normal :=
    ⟨_, .tail _ (.tail _ (.tail _ (.head _))), rfl, rfl⟩
  have acyclic : ¬ (edited busy).LeadsTo node.id node.id := by
    intro circle
    obtain ⟨_, call, _⟩ := Relation.TransGen.head'_iff.1 circle
    rw [named] at call
    exact absurd call.2 List.not_mem_nil
  have duplicable : node.kind.duplicable = true := by
    rw [kind]
    rfl
  have counted := tellings_eq_callers (built_edited busy) told first member duplicable acyclic
  have reached : (((edited busy).callers "SEND").filter fun caller => (edited busy).Reaches "MAIN" caller).length = 2 := by
    cbv
  rw [named, entry_busy first, reached] at counted
  exact ⟨entry, node, narrative, built_edited busy, told, first, member, named, duplicable, acyclic, rfl, counted⟩

end Graph

end CallChart
