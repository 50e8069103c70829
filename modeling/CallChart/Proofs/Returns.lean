import CallChart.Proofs.Drawing

/-! How loops return. The body of a loop ends with something that was told since the loop was, or with another loop
that was told before. From there a link leads back to the loop. It is drawn as a return in the first case; in
the second case the link leads forward, and nothing need return to the loop in the drawing. -/

namespace CallChart

def Diagram.ReturnsTo (diagram : Diagram) (id : String) : Prop :=
  ∃ edge ∈ diagram.edges, edge.loopBack = true ∧ edge.target = id

namespace Narrative

variable {narrative : Narrative}

theorem le_of_returnsTo {target : String} {index position : Nat} (returns : narrative.returnsTo target position = true)
    (located : narrative.ids[index]? = some target) : index ≤ position := by
  simp only [returnsTo, Bool.and_eq_true, Option.any_eq_true, decide_eq_true_eq] at returns
  obtain ⟨_, last, found, before⟩ := returns
  rw [ids, List.getElem?_map] at located
  obtain ⟨occurrence, placed, named⟩ := Option.map_eq_some_iff.1 located
  exact Nat.le_trans ((position?_some found).2 index occurrence placed named) before

/-- Where ids are distinct, a link leaves the one occurrence that its source names. -/
theorem Linked.leaves (distinct : narrative.ids.Nodup) {source target : String} (link : narrative.Linked source target)
    {index : Nat} {origin : Node} (placed : narrative.roster[index]? = some (source, origin)) :
    ∃ occurrence, narrative.occurrences[index]? = some occurrence ∧ occurrence.node = origin ∧
      target ∈ occurrence.next := by
  obtain ⟨occurrence, member, named, follows⟩ := link
  obtain ⟨place, located⟩ := List.getElem?_of_mem member
  have here : narrative.ids[place]? = some source := by simp [ids, located, named]
  obtain rfl := index_unique (not_ambiguous_of_nodup distinct source) here (ids_getElem? placed)
  rw [roster, List.getElem?_map, located] at placed
  exact ⟨occurrence, located, (Prod.mk.inj (Option.some.inj placed)).2, follows⟩

/-- Where ids are distinct and written forms tell links apart, returns are drawn for the links that lead back. -/
theorem returnsTo_iff (distinct : narrative.ids.Nodup) (apart : narrative.LinksApart) {position : Nat}
    {loop : Occurrence} (located : narrative.occurrences[position]? = some loop) (kind : loop.node.kind = .loop) :
    (Diagram.mk narrative narrative.edges).ReturnsTo loop.id ↔
      ∃ (index : Nat) (source : Occurrence), narrative.occurrences[index]? = some source ∧ loop.id ∈ source.next ∧
        position ≤ index := by
  have here : narrative.ids[position]? = some loop.id := by simp [ids, located]
  constructor
  · intro returns
    obtain ⟨edge, drawn, flag, target⟩ := returns
    obtain ⟨index, source, placed, _, follows, direction⟩ := narrative.edges_sound drawn
    rw [target] at follows direction
    exact ⟨index, source, placed, follows, le_of_returnsTo (direction ▸ flag) here⟩
  · intro leads
    obtain ⟨index, source, placed, follows, back⟩ := leads
    refine ⟨⟨source.id, loop.id, true⟩, (mem_edges_iff distinct apart).2 ⟨index, source, placed, rfl, follows, ?_⟩, rfl, rfl⟩
    have known : narrative.roster[position]? = some (loop.id, loop.node) := by simp [roster, located]
    exact (returnsTo_of_loop (not_ambiguous_of_nodup distinct loop.id) known kind back).symm

end Narrative

namespace Graph

variable {graph : Graph} {shared : List String} {root : String}

/-- The name of something behind an id that is told from a place on, or told once only. -/
def LateEnd (graph : Graph) (roster : List (String × Node)) (start : Nat) (id name : String) : Prop :=
  ∃ (index : Nat) (node : Node), roster[index]? = some (name, node) ∧ graph.Reaches id node.id ∧
    (start ≤ index ∨ node.kind.duplicable = false)

def Returned (graph : Graph) (narrative : Narrative) (name : String) (loop : Node) : Prop :=
  ∃ (position : Nat) (source : String), narrative.roster[position]? = some (name, loop) ∧
    graph.LateEnd narrative.roster position loop.id source ∧ narrative.Linked source name

/-- Each loop with a body that is told and not open any more has been returned to. -/
def AllReturned (graph : Graph) (chain : List String) (narrative : Narrative) : Prop :=
  ∀ name loop, (name, loop) ∈ narrative.roster → loop.kind = .loop → graph.callees loop.id ≠ [] →
    loop.id ∈ chain ∨ graph.Returned narrative name loop

theorem LateEnd.mono {roster longer : List (String × Node)} {start : Nat} {id name : String}
    (late : graph.LateEnd roster start id name) (grown : roster <+: longer) : graph.LateEnd longer start id name := by
  obtain ⟨index, node, placed, path, order⟩ := late
  exact ⟨index, node, getElem?_mono grown placed, path, order⟩

/-- Seen from a caller that was told before, an end of a callee is as late. -/
theorem LateEnd.of_callee {roster : List (String × Node)} {start since : Nat} {caller callee name : String}
    (late : graph.LateEnd roster start callee name) (before : since ≤ start) (call : graph.Calls caller callee) :
    graph.LateEnd roster since caller name := by
  obtain ⟨index, node, placed, path, order⟩ := late
  exact ⟨index, node, placed, .head call path, order.imp_left (Nat.le_trans before)⟩

theorem AllReturned.extend {chain : List String} {earlier later : Walk} (returned : graph.AllReturned chain earlier.told)
    (grown : earlier.Extends later)
    (opened : ∀ name loop, (name, loop) ∈ later.told.roster → (name, loop) ∈ earlier.told.roster ∨ loop.id ∈ chain) :
    graph.AllReturned chain later.told := by
  intro name loop member kind body
  rcases opened name loop member with old | inside
  · refine (returned name loop old kind body).imp_right fun back => ?_
    obtain ⟨position, source, placed, late, link⟩ := back
    exact ⟨position, source, getElem?_mono grown.roster placed, late.mono grown.roster, grown.links _ _ link⟩
  · exact Or.inl inside

private theorem AllReturned.relink {chain : List String} {earlier later : Walk}
    (returned : graph.AllReturned chain earlier.told) (grown : earlier.Extends later)
    (roster : later.told.roster = earlier.told.roster) : graph.AllReturned chain later.told :=
  returned.extend grown fun _ _ member => Or.inl (roster ▸ member)

private theorem AllReturned.tell {chain : List String} {walk : Walk} (returned : graph.AllReturned chain walk.told)
    (name : String) {node : Node} (inside : node.id ∈ chain) : graph.AllReturned chain (walk.tell name node).told := by
  refine returned.extend (.tell _ _ _) fun other loop member => ?_
  rw [Walk.roster_tell, List.mem_append] at member
  refine member.imp_right fun new => ?_
  cases List.mem_singleton.1 new
  exact inside

private theorem AllReturned.close {chain : List String} {id : String} {narrative : Narrative}
    (returned : graph.AllReturned (id :: chain) narrative)
    (own : ∀ name loop, (name, loop) ∈ narrative.roster → loop.kind = .loop → graph.callees loop.id ≠ [] →
      loop.id = id → graph.Returned narrative name loop) : graph.AllReturned chain narrative := by
  intro name loop member kind body
  rcases returned name loop member kind body with inside | back
  · rcases List.mem_cons.1 inside with here | inside
    · exact Or.inr (own name loop member kind body here)
    · exact Or.inl inside
  · exact Or.inr back

/-- The law of returns: the ends that stand open are late, and loops that are done with have been returned to. -/
def returnLaw (graph : Graph) : Law where
  before chain _ walk := graph.AllReturned chain walk.told
  amid opening _ ends walk :=
    graph.AllReturned (opening.node.id :: opening.chain) walk.told ∧
      ∀ id, id ∈ ends.main ∨ id ∈ ends.branches →
        graph.LateEnd walk.told.roster opening.start.told.roster.length opening.node.id id
  after chain id walk visit later :=
    graph.AllReturned chain later.told ∧
      ∀ left ∈ visit.ends, ∀ name ∈ left, graph.LateEnd later.told.roster walk.told.roster.length id name

private theorem late_step {opening : Opening} {done later sources : List String} {callee : String} {ends last : Ends}
    {walk told : Walk} {visit : Visit} (fresh : opening.Fresh graph)
    (listed : graph.callees opening.node.id = done ++ callee :: later)
    (since : opening.start.Extends walk) (grown : walk.Extends told)
    (holds : graph.returnLaw.amid opening done ends walk)
    (after : graph.returnLaw.after (opening.node.id :: opening.chain) callee walk visit told)
    (known : ∀ id, id ∈ last.main ∨ id ∈ last.branches →
      (id ∈ ends.main ∨ id ∈ ends.branches) ∨ ∃ left ∈ visit.ends, id ∈ left) :
    graph.returnLaw.amid opening (done ++ [callee]) last
      { told with told := told.told.linkAll sources visit.entry } := by
  refine ⟨after.1.relink (.linkAll _ _ _) (Narrative.roster_linkAll _ _), fun id member => ?_⟩
  rw [Narrative.roster_linkAll]
  rcases known id member with old | ⟨left, ends, inside⟩
  · exact (holds.2 id old).mono grown.roster
  · exact (after.2 left ends id inside).of_callee since.roster.length_le (calls_of_listed fresh listed)

/-- With the links to a loop from the ends of its body, the loop has been returned to. -/
private theorem returned_finish {opening : Opening} {ends : Ends} {walk : Walk} (main : ends.main ≠ [])
    (placed : walk.told.roster[opening.start.told.roster.length]? = some (opening.name shared, opening.node))
    (late : ∀ id, id ∈ ends.main ∨ id ∈ ends.branches →
      graph.LateEnd walk.told.roster opening.start.told.roster.length opening.node.id id) :
    graph.Returned (walk.told.linkAll ends.all (opening.name shared)) (opening.name shared) opening.node := by
  obtain ⟨source, member⟩ := List.exists_mem_of_ne_nil _ (Ends.all_ne_nil main)
  have back := late source ((Ends.mem_all.1 member).imp_left And.left)
  refine ⟨_, source, by rw [Narrative.roster_linkAll]; exact placed, by rw [Narrative.roster_linkAll]; exact back, ?_⟩
  obtain ⟨index, origin, here, _⟩ := back
  exact Narrative.linked_linkAll.2 (Or.inr ⟨member, rfl, Narrative.mem_ids.2 ⟨origin, List.mem_of_getElem? here⟩⟩)

theorem returnLaw_kept (graph : Graph) (shared : List String) (root : String) :
    Law.Kept graph shared ((graph.trailLaw root).both (graph.flowLaw shared)) graph.returnLaw where
  settled {_ node _} found single told base holds := by
    obtain ⟨index, placed⟩ := List.getElem?_of_mem (base.1.trail.mem_roster found single told)
    exact ⟨holds, Visit.leaf_ends ⟨index, node, placed, .refl, Or.inr single⟩⟩
  repeated {_ node walk} _ _ inside _ holds := by
    refine ⟨holds.tell _ inside, Visit.leaf_ends ?_⟩
    exact ⟨walk.told.roster.length, node, by simp, .refl, Or.inl (Nat.le_refl _)⟩
  reused _ _ _ _ _ holds := ⟨holds, nofun⟩
  opened {opening} _ _ holds := by
    have still : graph.AllReturned (opening.node.id :: opening.chain) opening.start.told :=
      fun name loop member kind body => (holds name loop member kind body).imp_left (List.mem_cons_of_mem _)
    constructor
    · rw [Opening.begun, Walk.told_note]
      exact still.tell _ List.mem_cons_self
    · intro id member
      rw [Ends.of_opened member]
      exact ⟨opening.start.told.roster.length, opening.node, by simp, .refl, Or.inl (Nat.le_refl _)⟩
  called _ _ _ holds := holds.1
  branched fresh listed _ base inner holds after := by
    rw [Narrative.link_eq_linkAll]
    exact late_step fresh listed base.1.2.2.1 inner.1.2.1 holds after fun id => Ends.of_branched
  sequenced fresh listed _ base inner holds after :=
    late_step fresh listed base.1.2.2.1 inner.1.2.1 holds after fun id => Ends.of_sequenced
  finished {opening ends walk} fresh base holds := by
    obtain ⟨⟨_, trail, _, _⟩, flow⟩ := base
    have header : graph.LateEnd walk.told.roster opening.start.told.roster.length opening.node.id (opening.name shared) :=
      ⟨_, opening.node, flow.placed, .refl, Or.inl (Nat.le_refl _)⟩
    unfold finish
    split
    · next kind =>
      split
      · next bare =>
        exact ⟨holds.1.close fun name loop _ _ body here => absurd (here ▸ bare) body, Visit.leaf_ends header⟩
      · constructor
        · refine (holds.1.relink (.linkAll _ _ _) (Narrative.roster_linkAll _ _)).close fun name loop member _ _ here => ?_
          rw [Narrative.roster_linkAll] at member
          obtain rfl := trail.node_eq fresh.found member here
          have single : opening.node.kind.duplicable = false := by simp [kind, Kind.duplicable]
          rw [trail.named name _ member single, ← Walk.nextId_single opening.start shared single]
          exact returned_finish flow.main flow.placed holds.2
        · rw [Narrative.roster_linkAll]
          exact Visit.leaf_ends header
    · next plain =>
      constructor
      · refine holds.1.close fun name loop member kind _ here => ?_
        obtain rfl := trail.node_eq fresh.found member here
        exact absurd kind plain
      · rintro _ ⟨⟩ name listed
        exact holds.2 name ((Ends.mem_all.1 listed).imp_left And.left)

/-- In a narrative that came about, every loop with a body has been returned to. -/
theorem Consistent.returned (consistent : graph.Consistent) {entry : Node} (first : graph.entry? = some entry)
    {narrative : Narrative} (told : graph.narrate = .ok narrative) {name : String} {loop : Node}
    (member : (name, loop) ∈ narrative.roster) (kind : loop.kind = .loop) (body : graph.callees loop.id ≠ []) :
    graph.Returned narrative name loop := by
  obtain ⟨visit, walk, visited, rfl, begins⟩ := consistent.visited first told
  have below := (trailLaw_kept graph graph.shared entry.id).both (flowLaw_kept graph graph.shared entry.id)
  have kept := below.both (returnLaw_kept graph graph.shared entry.id)
  obtain ⟨_, returned, _⟩ := kept.visit visited ⟨begins, nofun⟩
  exact (returned name loop member kind body).resolve_left List.not_mem_nil

/-- What a diagram shows of a loop has something to run. -/
theorem Valid.callees_ne_nil (valid : graph.Valid) (consistent : graph.Consistent) {start id : String}
    (starts : graph.kind? start = some .start) (kind : graph.prune.kind? id = some .loop)
    (reached : graph.prune.Reaches start id) : graph.prune.callees id ≠ [] := by
  obtain ⟨still, supported⟩ := valid.supported_prune consistent starts
  rcases (valid.vital_iff_supported consistent).1 ((valid.reaches_prune_iff consistent starts).1 reached) with rfl | below
  · cases still.symm.trans kind
  · obtain ⟨_, goal, path, normal⟩ := (supported id).2 below
    rcases Relation.ReflTransGen.cases_head path with rfl | ⟨next, call, _⟩
    · cases kind.symm.trans normal
    · exact List.ne_nil_of_mem call.2

/-- A late end of a loop's body that was not told since is a loop. -/
theorem Valid.loop_of_lateEnd (valid : graph.Valid) (consistent : graph.Consistent) {loop origin : Node}
    (kind : loop.kind = .loop) (here : graph.node? loop.id = some loop) (found : graph.node? origin.id = some origin)
    (path : graph.Reaches loop.id origin.id) (single : origin.kind.duplicable = false) : origin.kind = .loop := by
  by_cases same : loop.id = origin.id
  · obtain rfl : loop = origin := Option.some.inj (here.symm.trans (same ▸ found))
    exact kind
  · obtain ⟨caller, call⟩ := path.called same
    exact valid.loop_of_called consistent found call single

/-- In the diagram of a checked graph with distinct names, each loop has a link from something behind it that was told
no earlier than the loop, or from another loop. Where no two links have the same written form, as when ids have no
hyphens, a return to the loop is drawn exactly if a link leads there from no earlier place; and if not,
the link comes from a loop told before. -/
theorem loops_return (built : graph.Built) (checked : graph.check = .ok ()) (distinct : graph.DistinctNames) :
    ∃ diagram, graph.diagram = .ok diagram ∧
      (∀ (position : Nat) (loop : Occurrence), diagram.narrative.occurrences[position]? = some loop →
        loop.node.kind = .loop →
        (∃ (index : Nat) (source : Occurrence), diagram.narrative.occurrences[index]? = some source ∧
          loop.id ∈ source.next ∧ graph.prune.Reaches loop.node.id source.node.id ∧
          (position ≤ index ∨ source.node.kind = .loop)) ∧
        (diagram.narrative.LinksApart →
          (diagram.ReturnsTo loop.id ↔
            ∃ (index : Nat) (source : Occurrence), diagram.narrative.occurrences[index]? = some source ∧
              loop.id ∈ source.next ∧ position ≤ index) ∧
          (diagram.ReturnsTo loop.id ∨
            ∃ (index : Nat) (source : Occurrence), diagram.narrative.occurrences[index]? = some source ∧
              loop.id ∈ source.next ∧ graph.prune.Reaches loop.node.id source.node.id ∧
              index < position ∧ source.node.kind = .loop))) ∧
      ((∀ node ∈ graph.nodes, '-' ∉ node.id.toList) → diagram.narrative.LinksApart) := by
  have valid := check_eq_ok_iff.1 checked
  have consistent := built.consistent
  obtain ⟨narrative, start, drawn, first, narrated, told⟩ := valid.diagram consistent
  obtain ⟨entry, begun, same⟩ := valid.entry?_prune consistent first
  obtain ⟨found, starts⟩ := consistent.entry?_node? first
  have names : graph.prune.DistinctNames := distinct.mono fun id => contains_of_prune
  have unique : narrative.ids.Nodup := (named_of_narrate narrated).nodup names
  refine ⟨_, drawn, ?_, ?_⟩
  · intro position loop located kind
    have placed : narrative.roster[position]? = some (loop.id, loop.node) := by simp [Narrative.roster, located]
    obtain ⟨here, reached⟩ := told.behind _ _ (List.mem_of_getElem? placed)
    have body := valid.callees_ne_nil consistent (kind?_eq_some_iff.2 ⟨start, found, starts⟩)
      (kind?_eq_some_iff.2 ⟨loop.node, here, kind⟩) reached
    obtain ⟨place, name, again, ⟨index, origin, leaves, path, order⟩, link⟩ :=
      consistent.prune.returned begun narrated (List.mem_of_getElem? placed) kind body
    obtain rfl := Narrative.index_unique (Narrative.not_ambiguous_of_nodup unique loop.id)
      (Narrative.ids_getElem? placed) (Narrative.ids_getElem? again)
    obtain ⟨source, there, rfl, follows⟩ := link.leaves unique leaves
    have order : position ≤ index ∨ source.node.kind = .loop := order.imp_right <|
      (valid.prune consistent).loop_of_lateEnd consistent.prune kind here (told.behind _ _ (List.mem_of_getElem? leaves)).1
        path
    refine ⟨⟨index, source, there, follows, path, order⟩, fun apart => ?_⟩
    have drawnBack := Narrative.returnsTo_iff unique apart located kind
    refine ⟨drawnBack, ?_⟩
    rcases Nat.lt_or_ge index position with before | since
    · exact Or.inr ⟨index, source, there, follows, path, before, order.resolve_left (Nat.not_le.2 before)⟩
    · exact Or.inl (drawnBack.2 ⟨index, source, there, follows, since⟩)
  · intro plain
    exact consistent.prune.linksApart begun narrated fun id known => plain_of_nodes plain (contains_of_prune known)

theorem partlyDead_returns :
    ∃ graph diagram loop, partlyDead.toGraph = .ok graph ∧ graph.Built ∧ graph.check = .ok () ∧
      graph.DistinctNames ∧ graph.diagram = .ok diagram ∧ diagram.narrative.occurrences[1]? = some loop ∧
      loop.id = "LOOP" ∧ loop.node.kind = .loop ∧ diagram.narrative.LinksApart ∧ diagram.ReturnsTo loop.id := by
  obtain ⟨graph, read⟩ : ∃ graph, partlyDead.toGraph = .ok graph := ⟨_, rfl⟩
  obtain ⟨built, checked⟩ := GraphDoc.built_toGraph read
  have nodes : partlyDead.toGraph.map Graph.nodes = .ok (partlyDead.nodes.map NodeDoc.node) := rfl
  have kinds : (partlyDead.toGraph.bind Graph.diagram).map (fun diagram => diagram.narrative.occurrences.map
      fun occurrence => (occurrence.id, occurrence.node.kind)) = .ok [("MAIN", .start), ("LOOP", .loop),
        ("SAVE_1", .normal), ("IF", .condition), ("SAVE_2", .normal), ("SAVE_3", .normal)] := by cbv
  simp only [read, Except.map, Except.ok.injEq] at nodes
  have distinct : graph.DistinctNames := distinctNames_of_plain (by rw [ids, nodes]; decide)
  obtain ⟨diagram, drawn, returns, plain⟩ := loops_return built checked distinct
  simp only [read, drawn, Except.map, Except.bind, Except.ok.injEq] at kinds
  have kindAt : ∀ (index : Nat) (occurrence : Occurrence), diagram.narrative.occurrences[index]? = some occurrence →
      [("MAIN", Kind.start), ("LOOP", .loop), ("SAVE_1", .normal), ("IF", .condition), ("SAVE_2", .normal),
        ("SAVE_3", .normal)][index]? = some (occurrence.id, occurrence.node.kind) := by
    intro index occurrence located
    rw [← kinds, List.getElem?_map, located, Option.map_some]
  have apart : diagram.narrative.LinksApart := plain (by rw [nodes]; decide)
  have long : 1 < diagram.narrative.occurrences.length := by
    have count := congrArg List.length kinds
    simp only [List.length_map] at count
    simp [count]
  obtain ⟨loop, located⟩ : ∃ loop, diagram.narrative.occurrences[1]? = some loop := ⟨_, List.getElem?_eq_getElem long⟩
  obtain ⟨named, kind⟩ := Prod.mk.inj (Option.some.inj (kindAt 1 loop located))
  refine ⟨graph, diagram, loop, read, built, checked, distinct, drawn, located, named.symm, kind.symm, apart, ?_⟩
  rcases ((returns 1 loop located kind.symm).2 apart).2 with back | ⟨index, source, placed, _, _, before, other⟩
  · exact back
  · -- Before the loop stands the start node only.
    obtain rfl : index = 0 := by omega
    have first := kindAt 0 source placed
    simp [other] at first

/-- A loop around a paragraph that runs another loop. The paragraph is called before, so the inner loop is told first. -/
def revisiting : GraphDoc := ⟨[
  .brief "MAIN" .start [] ["OPEN", "SAVE", "AGAIN"],
  .brief "OPEN" .normal ["MAIN", "AGAIN"] ["LOOP"],
  .brief "LOOP" .loop ["OPEN"] ["LOCK"],
  .brief "LOCK" .normal ["LOOP"] [],
  .brief "SAVE" .normal ["MAIN"] [],
  .brief "AGAIN" .loop ["MAIN"] ["OPEN"]]⟩

theorem revisiting_unreturned :
    ∃ graph diagram loop, revisiting.toGraph = .ok graph ∧ graph.Built ∧ graph.check = .ok () ∧ graph.DistinctNames ∧
      graph.diagram = .ok diagram ∧ loop ∈ diagram.narrative.occurrences ∧ loop.id = "AGAIN" ∧ loop.node.kind = .loop ∧
      ¬ diagram.ReturnsTo loop.id := by
  obtain ⟨graph, read⟩ : ∃ graph, revisiting.toGraph = .ok graph := ⟨_, rfl⟩
  obtain ⟨built, checked⟩ := GraphDoc.built_toGraph read
  obtain ⟨narrative, _, drawn, _⟩ := (check_eq_ok_iff.1 checked).diagram built.consistent
  generalize Diagram.mk narrative narrative.edges = diagram at drawn
  have names : revisiting.toGraph.map Graph.ids = .ok ["MAIN", "OPEN", "LOOP", "LOCK", "SAVE", "AGAIN"] := rfl
  have shown : (revisiting.toGraph.bind Graph.diagram).map (fun diagram => (diagram.narrative.occurrences.any
      (fun occurrence => occurrence.id = "AGAIN" && occurrence.node.kind = .loop),
      diagram.edges.all (fun edge => !(edge.loopBack && edge.target = "AGAIN")))) = .ok (true, true) := by cbv
  simp only [read, drawn, Except.map, Except.bind, Except.ok.injEq, Prod.mk.injEq, List.any_eq_true, Bool.and_eq_true,
    decide_eq_true_eq] at names shown
  obtain ⟨⟨loop, member, named, kind⟩, straight⟩ := shown
  refine ⟨graph, diagram, loop, read, built, checked, distinctNames_of_plain (by rw [names]; decide), drawn, member,
    named, kind, fun returns => ?_⟩
  obtain ⟨edge, inside, flag, target⟩ := returns
  have denied := List.all_eq_true.1 straight edge inside
  simp [flag, target, named] at denied

end Graph

end CallChart
