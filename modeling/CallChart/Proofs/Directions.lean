import CallChart.Proofs.Multiplicity
import CallChart.Proofs.Returns

/-! Which way links lead. A new telling stands behind all others, so a link leads back only where it comes to something
that was told before: to a loop, or to a copy that was made when the same caller was open for another caller of its
own. Such a copy is older than the opening that comes back to it, and the ends it is linked from are not, unless they
are loops; so nothing but a loop leads to itself. -/

namespace CallChart

namespace Walk

def Remembers (earlier later : Walk) : Prop :=
  ∀ callee caller entry, earlier.reached.find? (callee, caller) = some entry →
    later.reached.find? (callee, caller) = some entry

theorem Remembers.trans {earlier middle later : Walk} (first : earlier.Remembers middle)
    (second : middle.Remembers later) : earlier.Remembers later :=
  fun _ _ _ known => second _ _ _ (first _ _ _ known)

theorem remembers_begun {graph : Graph} (shared : List String) {opening : Opening} (fresh : opening.Fresh graph) :
    opening.start.Remembers (opening.begun shared) := by
  intro callee caller entry known
  unfold Opening.begun note
  split
  · next other head =>
    split
    · have different : (opening.node.id, other) ≠ (callee, caller) := by
        intro same
        have unknown := fresh.unreached other head
        rw [same, known] at unknown
        cases unknown
      rw [OrderedMap.find?_insert, if_neg different]
      exact known
    · exact known
  · exact known

end Walk

theorem Narrative.tellings_mono {narrative longer : Narrative} (grown : narrative.roster <+: longer.roster)
    (id : String) : narrative.tellings id ≤ longer.tellings id := by
  rw [tellings_eq_count, tellings_eq_count]
  exact (grown.map _).sublist.count_le id

namespace Graph

variable {graph : Graph} {shared : List String} {root : String}

/-- A link leads forward, or to a node that is told once only, or from another place to a callee of something told
twice. -/
inductive Directed (graph : Graph) (narrative : Narrative) (source target : String) : Prop where
  | forward {first second : Nat} {origin goal : Node} (leaves : narrative.roster[first]? = some (source, origin))
      (arrives : narrative.roster[second]? = some (target, goal)) (order : first < second)
  | single {goal : Node} (arrives : (target, goal) ∈ narrative.roster) (single : goal.kind.duplicable = false)
      (called : goal.kind = .loop ∨ ∃ caller, graph.Calls caller goal.id)
  | again {first second : Nat} {origin goal : Node} {parent : String}
      (leaves : narrative.roster[first]? = some (source, origin))
      (arrives : narrative.roster[second]? = some (target, goal)) (elsewhere : first ≠ second)
      (duplicable : goal.kind.duplicable = true) (call : graph.Calls parent goal.id)
      (twice : 2 ≤ narrative.tellings parent)

def AllDirected (graph : Graph) (narrative : Narrative) : Prop :=
  ∀ source target, narrative.Linked source target → graph.Directed narrative source target

theorem Directed.mono {narrative longer : Narrative} {source target : String}
    (directed : graph.Directed narrative source target) (grown : narrative.roster <+: longer.roster) :
    graph.Directed longer source target := by
  cases directed with
  | forward leaves arrives order => exact .forward (getElem?_mono grown leaves) (getElem?_mono grown arrives) order
  | single arrives single called => exact .single (grown.subset arrives) single called
  | again leaves arrives elsewhere duplicable call twice =>
    have still := Nat.le_trans twice (Narrative.tellings_mono grown _)
    exact .again (getElem?_mono grown leaves) (getElem?_mono grown arrives) elsewhere duplicable call still

private theorem AllDirected.tell {walk : Walk} (directed : graph.AllDirected walk.told) (name : String) (node : Node) :
    graph.AllDirected (walk.tell name node).told := by
  intro source target link
  exact (directed source target (Walk.linked_tell.1 link)).mono (Walk.Extends.tell walk name node).roster

/-- What telling an id gives its caller to link to: a new occurrence, one of a node that is told once only, or the one
that was noted for the two. -/
def Met (chain : List String) (id : String) (walk : Walk) (visit : Visit) (later : Walk) : Prop :=
  ∃ (index : Nat) (node : Node), later.told.roster[index]? = some (visit.entry, node) ∧ node.id = id ∧
    (walk.told.roster.length ≤ index ∨ node.kind.duplicable = false ∨
      ∃ caller ∈ chain.head?, walk.reached.find? (id, caller) = some visit.entry)

def directionLaw (graph : Graph) : Law where
  before _ _ walk := graph.AllDirected walk.told
  amid opening _ _ walk := graph.AllDirected walk.told ∧ opening.start.Remembers walk
  after chain id walk visit later :=
    graph.AllDirected later.told ∧ walk.Remembers later ∧ Met chain id walk visit later

theorem Trail.tells_of_entered {chain : List String} {walk : Walk} (trail : graph.Trail root chain walk) {id : String}
    (entered : graph.Entered walk id) : walk.told.tells id = true := by
  rcases entered with ⟨_, _, _, told⟩ | ⟨caller, noted⟩
  · exact told
  · obtain ⟨entry, known⟩ := Option.isSome_iff_exists.1 (Walk.find?_isSome_iff_noted.2 noted)
    obtain ⟨_, node, member, named, _⟩ := trail.notes _ _ _ known
    exact Narrative.tells_iff.2 ⟨entry, node, member, named⟩

/-- A node that is told when it was told before is told twice. -/
private theorem two_le_tellings {earlier later : Narrative} {name : String} {node : Node}
    (told : earlier.tells node.id = true) (grown : earlier.roster <+: later.roster)
    (placed : later.roster[earlier.roster.length]? = some (name, node)) : 2 ≤ later.tellings node.id := by
  obtain ⟨rest, whole⟩ := grown
  rw [← whole, List.getElem?_append_right (Nat.le_refl _), Nat.sub_self, ← List.head?_eq_getElem?] at placed
  obtain ⟨others, rfl⟩ := List.head?_eq_some_iff.1 placed
  have before : 0 < earlier.tellings node.id := by
    obtain ⟨occurrence, member, same⟩ := List.any_eq_true.1 told
    exact List.countP_pos_iff.2 ⟨occurrence, member, same⟩
  rw [Narrative.tellings_eq_count] at before ⊢
  rw [← whole, List.map_append, List.count_append, List.map_cons, List.count_cons_self]
  omega

/-- Where a note is come back to, the copy is older than the opening, and its caller is told for the second time. -/
private theorem again_of_noted {opening : Opening} {done later : List String} {source entry callee : String}
    {walk : Walk} {ends : Ends} (fresh : opening.Fresh graph)
    (listed : graph.callees opening.node.id = done ++ callee :: later) (base : (graph.trailLaw root).amid opening done ends walk)
    (placed : walk.told.roster[opening.start.told.roster.length]? = some (opening.name shared, opening.node))
    (remembers : opening.start.Remembers walk)
    (late : graph.LateEnd walk.told.roster opening.start.told.roster.length opening.node.id source)
    (known : walk.reached.find? (callee, opening.node.id) = some entry) : graph.Directed walk.told source entry := by
  obtain ⟨approach, _, extended, origin⟩ := base
  have noted := noted_at_start fresh listed origin (Walk.find?_isSome_iff_noted.1 (by simp [known]))
  obtain ⟨first, earlier⟩ := Option.isSome_iff_exists.1 (Walk.find?_isSome_iff_noted.2 noted)
  obtain rfl := Option.some.inj ((remembers _ _ _ earlier).symm.trans known)
  obtain ⟨call, node, member, rfl, duplicable⟩ := approach.trail.notes _ _ _ earlier
  obtain ⟨second, there⟩ := List.getElem?_of_mem member
  obtain ⟨index, origin, here, _, since⟩ := late
  have arrives := getElem?_mono extended.roster there
  refine .again here arrives ?_ duplicable call ?_
  · rintro rfl
    rcases since with since | single
    · have before := (List.getElem?_eq_some_iff.1 there).1
      omega
    · -- A loop that stands open is no copy.
      obtain rfl := (Prod.mk.inj (Option.some.inj (here.symm.trans arrives))).2
      simp [single] at duplicable
  · have told := approach.trail.tells_of_entered (approach.trail.followed _ _ noted)
    exact two_le_tellings told extended.roster placed

private theorem directed_linkAll {opening : Opening} {done later sources : List String} {callee : String} {ends : Ends}
    {walk told : Walk} {visit : Visit} (fresh : opening.Fresh graph)
    (listed : graph.callees opening.node.id = done ++ callee :: later)
    (base : (graph.trailLaw root).amid opening done ends walk)
    (placed : walk.told.roster[opening.start.told.roster.length]? = some (opening.name shared, opening.node))
    (late : ∀ id ∈ sources, graph.LateEnd walk.told.roster opening.start.told.roster.length opening.node.id id)
    (grown : walk.Extends told) (holds : graph.directionLaw.amid opening done ends walk)
    (after : graph.directionLaw.after (opening.node.id :: opening.chain) callee walk visit told) :
    graph.AllDirected (told.told.linkAll sources visit.entry) := by
  obtain ⟨directed, _, second, goal, arrives, rfl, order⟩ := after
  have same : told.told.roster <+: (told.told.linkAll sources visit.entry).roster := ⟨[], by simp⟩
  intro source target link
  rcases Narrative.linked_linkAll.1 link with old | ⟨member, rfl, _⟩
  · exact (directed source target old).mono same
  · have lateEnd := late source member
    rcases order with new | single | ⟨caller, head, known⟩
    · obtain ⟨first, origin, here, _⟩ := lateEnd
      have order : first < second := Nat.lt_of_lt_of_le (List.getElem?_eq_some_iff.1 here).1 new
      exact (Directed.forward (getElem?_mono grown.roster here) arrives order).mono same
    · have call := calls_of_listed fresh listed
      exact (Directed.single (List.mem_of_getElem? arrives) single (Or.inr ⟨_, call⟩)).mono same
    · cases head
      exact (again_of_noted fresh listed base placed holds.2 lateEnd known).mono (grown.roster.trans same)

theorem directionLaw_kept (graph : Graph) (shared : List String) (root : String) :
    Law.Kept graph shared (((graph.trailLaw root).both (graph.flowLaw shared)).both graph.returnLaw)
      graph.directionLaw where
  settled {_ node _} found single told base holds := by
    obtain ⟨index, placed⟩ := List.getElem?_of_mem (base.1.1.trail.mem_roster found single told)
    exact ⟨holds, fun _ _ _ known => known, index, node, placed, rfl, Or.inr (Or.inl single)⟩
  repeated {_ node walk} _ _ _ _ holds :=
    ⟨holds.tell _ _, fun _ _ _ known => known, walk.told.roster.length, node, by simp [Visit.leaf], rfl,
      Or.inl (Nat.le_refl _)⟩
  reused {caller entry _ _ _} _ _ _ known base holds := by
    obtain ⟨_, node, member, named, _⟩ := base.1.1.trail.notes _ _ _ known
    obtain ⟨index, placed⟩ := List.getElem?_of_mem member
    exact ⟨holds, fun _ _ _ known => known, index, node, placed, named, Or.inr (Or.inr ⟨caller, rfl, known⟩)⟩
  opened {opening} fresh _ holds := by
    refine ⟨?_, Walk.remembers_begun shared fresh⟩
    rw [Opening.begun, Walk.told_note]
    exact holds.tell _ _
  called _ _ _ holds := holds.1
  branched {opening _ _ _ _ _ _ _} fresh listed _ base inner holds after := by
    rw [Narrative.link_eq_linkAll]
    refine ⟨?_, holds.2.trans after.2.1⟩
    refine directed_linkAll fresh listed base.1.1 base.1.2.placed ?_ inner.1.1.2.1 holds after
    intro id member
    rw [List.mem_singleton.1 member]
    exact ⟨_, opening.node, base.1.2.placed, .refl, Or.inl (Nat.le_refl _)⟩
  sequenced fresh listed _ base inner holds after := by
    refine ⟨?_, holds.2.trans after.2.1⟩
    refine directed_linkAll fresh listed base.1.1 base.1.2.placed ?_ inner.1.1.2.1 holds after
    exact fun id main => base.2.2 id (Or.inl main)
  finished {opening ends walk} _ base holds := by
    have placed := base.1.2.placed
    have met : ∀ visit later, visit.entry = opening.name shared → later.told.roster = walk.told.roster →
        Met opening.chain opening.node.id opening.start visit later := by
      intro visit later entry roster
      exact ⟨_, opening.node, by rw [entry, roster]; exact placed, rfl, Or.inl (Nat.le_refl _)⟩
    unfold finish
    split
    · next loop =>
      split
      · exact ⟨holds.1, holds.2, met _ _ rfl rfl⟩
      · have same : walk.told.roster <+: (walk.told.linkAll ends.all (opening.name shared)).roster := ⟨[], by simp⟩
        refine ⟨?_, holds.2, met _ _ rfl (Narrative.roster_linkAll _ _)⟩
        intro source target link
        rcases Narrative.linked_linkAll.1 link with old | ⟨_, rfl, _⟩
        · exact (holds.1 source target old).mono same
        · have single : opening.node.kind.duplicable = false := by simp [loop, Kind.duplicable]
          exact (Directed.single (List.mem_of_getElem? placed) single (Or.inl loop)).mono same
    · exact ⟨holds.1, holds.2, met _ _ rfl rfl⟩

theorem Consistent.directed (consistent : graph.Consistent) {entry : Node} (first : graph.entry? = some entry)
    {narrative : Narrative} (told : graph.narrate = .ok narrative) : graph.AllDirected narrative := by
  obtain ⟨visit, walk, visited, rfl, begins⟩ := consistent.visited first told
  have below := (trailLaw_kept graph graph.shared entry.id).both (flowLaw_kept graph graph.shared entry.id)
  have kept := (below.both (returnLaw_kept graph graph.shared entry.id)).both
    (directionLaw_kept graph graph.shared entry.id)
  obtain ⟨_, directed, _⟩ := kept.visit visited ⟨⟨begins, nofun⟩, nofun⟩
  exact directed

/-- In the narrative of a checked graph with distinct names, an edge that does not lead forward is drawn as a loop's
return, or leads to a copy of a callee of some node that is told twice; and only loops have an edge to themselves. -/
theorem backward_edges (built : graph.Built) (checked : graph.check = .ok ()) (distinct : graph.DistinctNames) :
    ∃ narrative, graph.narrate = .ok narrative ∧
      ∀ edge ∈ narrative.edges, ∃ (here there : Nat) (source target : Occurrence),
        narrative.position? edge.source = some here ∧ narrative.get? edge.source = some source ∧
        narrative.position? edge.target = some there ∧ narrative.get? edge.target = some target ∧
        (there ≤ here → edge.loopBack = true ∨
          (target.node.kind.duplicable = true ∧
            ∃ parent, graph.Calls parent target.node.id ∧ 2 ≤ narrative.tellings parent)) ∧
        (edge.source = edge.target → source.node.kind = .loop) := by
  have valid := check_eq_ok_iff.1 checked
  have consistent := built.consistent
  obtain ⟨narrative, told⟩ := valid.narrate
  obtain ⟨start, first, _⟩ := valid.entry
  have unique : narrative.ids.Nodup := (named_of_narrate told).nodup distinct
  have behind := (consistent.tells first told).behind
  refine ⟨narrative, told, fun edge drawn => ?_⟩
  obtain ⟨position, occurrence, located, leaves, follows, flag⟩ := narrative.edges_sound drawn
  have clear := Narrative.not_ambiguous_of_nodup unique
  have exits : narrative.roster[position]? = some (edge.source, occurrence.node) := by
    simp [Narrative.roster, located, leaves]
  obtain ⟨here, source, found, _⟩ := Narrative.get?_of_roster (clear _) exits
  have apart : ∀ {index : Nat} {goal : Node}, narrative.roster[index]? = some (edge.target, goal) → position ≠ index →
      edge.source ≠ edge.target := by
    intro index goal arrives different same
    apply different
    exact Narrative.index_unique (clear _) (Narrative.ids_getElem? exits) (same ▸ Narrative.ids_getElem? arrives)
  cases consistent.directed first told edge.source edge.target
      ⟨occurrence, List.mem_of_getElem? located, leaves.symm, follows⟩ with
  | @forward index second origin goal begins arrives order =>
    obtain rfl := Narrative.index_unique (clear _) (Narrative.ids_getElem? exits) (Narrative.ids_getElem? begins)
    obtain ⟨there, target, reached, rfl⟩ := Narrative.get?_of_roster (clear _) arrives
    refine ⟨position, second, source, target, here, found, there, reached, fun back => ?_, fun same => ?_⟩
    · omega
    · exact absurd same (apart arrives (Nat.ne_of_lt order))
  | @single goal arrives single called =>
    have loop : goal.kind = .loop := by
      rcases called with loop | ⟨caller, call⟩
      · exact loop
      · exact valid.loop_of_called consistent (behind _ _ arrives).1 call single
    obtain ⟨second, arrives⟩ := List.getElem?_of_mem arrives
    obtain ⟨there, target, reached, rfl⟩ := Narrative.get?_of_roster (clear _) arrives
    refine ⟨position, second, source, target, here, found, there, reached, fun back => Or.inl ?_, fun same => ?_⟩
    · rw [flag]
      exact Narrative.returnsTo_of_loop (clear _) arrives loop back
    · rw [same, reached] at found
      exact Option.some.inj found ▸ loop
  | @again index second origin goal parent begins arrives elsewhere duplicable call twice =>
    obtain rfl := Narrative.index_unique (clear _) (Narrative.ids_getElem? exits) (Narrative.ids_getElem? begins)
    obtain ⟨there, target, reached, rfl⟩ := Narrative.get?_of_roster (clear _) arrives
    refine ⟨position, second, source, target, here, found, there, reached, fun _ => Or.inr ?_, fun same => ?_⟩
    · exact ⟨duplicable, parent, call, twice⟩
    · exact absurd same (apart arrives elsewhere)

/-- The second copy of a paragraph leads back to the callee that was told for the first. -/
theorem returning_backward :
    ∃ graph narrative parent, returning.toGraph = .ok graph ∧ graph.Built ∧ graph.check = .ok () ∧
      graph.DistinctNames ∧ graph.narrate = .ok narrative ∧ ⟨"OPEN_2", "LOCK_1", false⟩ ∈ narrative.edges ∧
      narrative.position? "OPEN_2" = some 4 ∧ narrative.position? "LOCK_1" = some 2 ∧
      graph.Calls parent "LOCK" ∧ 2 ≤ narrative.tellings parent := by
  obtain ⟨graph, read⟩ : ∃ graph, returning.toGraph = .ok graph := ⟨_, rfl⟩
  obtain ⟨built, checked⟩ := GraphDoc.built_toGraph read
  have names : returning.toGraph.map Graph.ids = .ok ["MAIN", "OPEN", "LOCK", "SEND"] := rfl
  simp only [read, Except.map, Except.ok.injEq] at names
  have distinct : graph.DistinctNames := distinctNames_of_plain (by rw [names]; decide)
  obtain ⟨narrative, told, leads⟩ := backward_edges built checked distinct
  have shown : (returning.toGraph.bind Graph.narrate).map (fun narrative =>
      (narrative.edges.any (· = ⟨"OPEN_2", "LOCK_1", false⟩), narrative.position? "OPEN_2",
        narrative.position? "LOCK_1", (narrative.get? "LOCK_1").map (·.node.id))) =
      .ok (true, some 4, some 2, some "LOCK") := by cbv
  simp only [read, told, Except.map, Except.bind, Except.ok.injEq, Prod.mk.injEq, List.any_eq_true,
    decide_eq_true_eq, exists_eq_right] at shown
  obtain ⟨drawn, origin, goal, named⟩ := shown
  obtain ⟨here, there, source, target, leaves, _, arrives, reached, back, _⟩ := leads _ drawn
  rw [reached, Option.map_some, Option.some.injEq] at named
  obtain rfl := Option.some.inj (origin.symm.trans leaves)
  obtain rfl := Option.some.inj (goal.symm.trans arrives)
  obtain ⟨_, parent, call, twice⟩ := (back (by decide)).resolve_left (by decide)
  exact ⟨graph, narrative, parent, read, built, checked, distinct, told, drawn, origin, goal, named ▸ call, twice⟩

end Graph

end CallChart
