import CallChart.Proofs.Drawing
import CallChart.Proofs.Parallel
import CallChart.Proofs.Survivors

/-! Code that the start node does not reach leaves no trace in a narrative, except in the numbers of copies: a node
that such code calls may count as shared. With that code deleted, the same nodes are vital, and the walk
finds the same nodes and calls behind the start node. -/

namespace CallChart

/-- Two occurrences tell alike nodes, and on either side they are linked with the same places in the same order. -/
structure Occurrence.Tallies (first second : Narrative) (occurrence copy : Occurrence) : Prop where
  node : occurrence.node.Alike copy.node
  prev : ∃ places : List Nat, occurrence.prev.toList.map first.position? = places.map some ∧
    copy.prev.toList.map second.position? = places.map some
  next : ∃ places : List Nat, occurrence.next.toList.map first.position? = places.map some ∧
    copy.next.toList.map second.position? = places.map some

def Narrative.Tallies (first second : Narrative) : Prop :=
  List.Forall₂ (Occurrence.Tallies first second) first.occurrences second.occurrences

/-- An occurrence has the id of its node, with or without a number. -/
def Occurrence.Numbered (occurrence : Occurrence) : Prop :=
  occurrence.id = occurrence.node.id ∨ ∃ number, 0 < number ∧ occurrence.id = copyName occurrence.node.id number

namespace Narrative

variable {first second : Narrative}

/-- Ids that match stand for one place. -/
theorem Mirrors.exists_place (mirrors : first.Mirrors second) {left right : String} (pair : first.Matches second left right) :
    ∃ place, first.position? left = some place ∧ second.position? right = some place := by
  obtain ⟨place, here⟩ := Option.isSome_iff_exists.1 (position?_isSome.2 (List.of_mem_zip pair).1)
  exact ⟨place, here, mirrors.position?_eq pair ▸ here⟩

theorem matches_of_position? {left right : String} {place : Nat} (here : first.position? left = some place)
    (there : second.position? right = some place) : first.Matches second left right := by
  obtain ⟨⟨occurrence, located, named⟩, _⟩ := position?_some here
  obtain ⟨⟨copy, relocated, renamed⟩, _⟩ := position?_some there
  refine List.mem_iff_getElem?.2 ⟨place, List.getElem?_zip_eq_some.2 ⟨?_, ?_⟩⟩
  · simp [ids, located, named]
  · simp [ids, relocated, renamed]

private theorem Mirrors.places_eq (mirrors : first.Mirrors second) {items others : List String}
    (aligned : List.Forall₂ (first.Matches second) items others) :
    ∃ places : List Nat, items.map first.position? = places.map some ∧ others.map second.position? = places.map some := by
  induction aligned with
  | nil => exact ⟨[], rfl, rfl⟩
  | @cons item other items others pair _ ih =>
    obtain ⟨places, left, right⟩ := ih
    obtain ⟨place, here, there⟩ := mirrors.exists_place pair
    refine ⟨place :: places, ?_, ?_⟩
    · rw [List.map_cons, here, left, List.map_cons]
    · rw [List.map_cons, there, right, List.map_cons]

theorem Mirrors.tallies (mirrors : first.Mirrors second) : first.Tallies second := by
  refine mirrors.places.imp ?_
  intro occurrence copy pair
  exact ⟨pair.node, mirrors.places_eq pair.prev, mirrors.places_eq pair.next⟩

/-- Where ids are distinct, those in the same place match one to one. -/
theorem biUnique_of_nodup (left : first.ids.Nodup) (right : second.ids.Nodup) :
    Relator.BiUnique (first.Matches second) := by
  have placed : ∀ {one other : String}, first.Matches second one other →
      ∃ index : Nat, first.ids[index]? = some one ∧ second.ids[index]? = some other := by
    intro one other pair
    obtain ⟨index, located⟩ := List.mem_iff_getElem?.1 pair
    exact ⟨index, List.getElem?_zip_eq_some.1 located⟩
  have same : ∀ {ids : List String} {index place : Nat} {id : String}, ids.Nodup → ids[index]? = some id →
      ids[place]? = some id → index = place := by
    intro ids index place id distinct here there
    obtain ⟨inside, _⟩ := List.getElem?_eq_some_iff.1 here
    exact (List.getElem?_inj inside distinct).1 (here.trans there.symm)
  constructor
  · intro one two other pair twin
    obtain ⟨index, here, there⟩ := placed pair
    obtain ⟨place, again, beyond⟩ := placed twin
    cases same right there beyond
    exact Option.some.inj (here.symm.trans again)
  · intro one two other pair twin
    obtain ⟨index, here, there⟩ := placed pair
    obtain ⟨place, again, beyond⟩ := placed twin
    cases same left here again
    exact Option.some.inj (there.symm.trans beyond)

end Narrative

section Edges

structure Edge.Joins (first second : Narrative) (edge copy : Edge) : Prop where
  source : ∃ place, first.position? edge.source = some place ∧ second.position? copy.source = some place
  target : ∃ place, first.position? edge.target = some place ∧ second.position? copy.target = some place

structure Edge.Tallies (first second : Narrative) (edge copy : Edge) : Prop extends Edge.Joins first second edge copy where
  loopBack : edge.loopBack = copy.loopBack

private theorem forall₂_mem {α β : Type} {related : α → β → Prop} {items : List α} {twins : List β}
    (aligned : List.Forall₂ related items twins) :
    List.Forall₂ (fun item twin => related item twin ∧ item ∈ items ∧ twin ∈ twins) items twins := by
  obtain ⟨length, pairs⟩ := List.forall₂_iff_zip.1 aligned
  exact List.forall₂_iff_zip.2 ⟨length, fun member => ⟨pairs member, List.of_mem_zip member⟩⟩

private theorem forall₂_zipIdx {α β : Type} {related : α → β → Prop} {items : List α} {twins : List β}
    (aligned : List.Forall₂ related items twins) (offset : Nat) :
    List.Forall₂ (fun item twin => related item.1 twin.1 ∧ item.2 = twin.2) (items.zipIdx offset) (twins.zipIdx offset) := by
  induction aligned generalizing offset with
  | nil => exact .nil
  | cons pair _ ih => exact .cons ⟨pair, rfl⟩ (ih (offset + 1))

namespace Narrative

variable {first second : Narrative}

theorem Mirrors.returnsTo_eq (mirrors : first.Mirrors second) {target twin : String}
    (pair : first.Matches second target twin) (position : Nat) :
    first.returnsTo target position = second.returnsTo twin position := by
  have kinds : first.occurrences.map (·.node.kind) = second.occurrences.map (·.node.kind) := by
    rw [← List.forall₂_eq_eq_eq, List.forall₂_map_left_iff, List.forall₂_map_right_iff]
    exact mirrors.places.imp fun _ _ pair => pair.node.kind
  rw [returnsTo, returnsTo, get?, get?, mirrors.position?_eq pair]
  cases second.position? twin with
  | none => rfl
  | some index =>
    have same := congrArg (·[index]?) kinds
    simp only [List.getElem?_map] at same
    simp only [Option.bind_some]
    cases here : first.occurrences[index]? <;> cases there : second.occurrences[index]? <;> simp_all

/-- Edges between the same places are drawn alike. -/
theorem Mirrors.loopBack_eq (mirrors : first.Mirrors second) (left : first.ids.Nodup) (right : second.ids.Nodup)
    {edge copy : Edge} (drawn : edge ∈ first.edges) (redrawn : copy ∈ second.edges)
    (joins : Edge.Joins first second edge copy) : edge.loopBack = copy.loopBack := by
  obtain ⟨⟨start, leaves, releaves⟩, stop, arrives, rearrives⟩ := joins
  obtain ⟨position, occurrence, located, source, _, flag⟩ := first.edges_sound drawn
  obtain ⟨place, twin, placed, resource, _, reflag⟩ := second.edges_sound redrawn
  have here := position?_of_nodup left located
  have there := position?_of_nodup right placed
  rw [← source, leaves] at here
  rw [← resource, releaves] at there
  cases here
  cases there
  rw [flag, reflag]
  exact mirrors.returnsTo_eq (matches_of_position? arrives rearrives) start

/-- Links are drawn alike, as long as the written forms tell them apart. -/
theorem Mirrors.edges (mirrors : first.Mirrors second) (apart : first.LinksApart) (distant : second.LinksApart) :
    List.Forall₂ (Edge.Tallies first second) first.edges second.edges := by
  let related := fun edge copy : Edge => first.Matches second edge.source copy.source ∧
    first.Matches second edge.target copy.target ∧ edge.loopBack = copy.loopBack ∧
    first.Linked edge.source edge.target ∧ second.Linked copy.source copy.target
  have drawn : List.Forall₂ related first.edges second.edges := by
    apply rel_distinctOn ?_ .nil
    · apply List.rel_flatMap (forall₂_zipIdx (forall₂_mem mirrors.paired) 0)
      intro item twin both
      obtain ⟨⟨⟨occurrence, named⟩, told, retold⟩, position⟩ := both
      simp only [Narrative.edgesFrom, List.forall₂_map_left_iff, List.forall₂_map_right_iff, position]
      refine (forall₂_mem occurrence.next).imp ?_
      intro target goal linked
      obtain ⟨pair, follows, refollows⟩ := linked
      exact ⟨named, pair, mirrors.returnsTo_eq pair _, ⟨_, told, rfl, follows⟩, _, retold, rfl, refollows⟩
    · intro edge copy other twin pair again
      obtain ⟨source, target, _, link, relink⟩ := pair
      obtain ⟨origin, goal, _, second, resecond⟩ := again
      rw [apart.id_eq_iff link second, distant.id_eq_iff relink resecond]
      exact and_congr (Relator.rel_eq mirrors.single source origin) (Relator.rel_eq mirrors.single target goal)
  refine drawn.imp ?_
  intro edge copy pair
  exact ⟨⟨mirrors.exists_place pair.1, mirrors.exists_place pair.2.1⟩, pair.2.2.1⟩

end Narrative

end Edges

namespace Graph

variable {graph : Graph} {start : String} {gone : List String}

section Behind

variable (outside : ∀ id, id ∈ gone ↔ graph.contains id = true ∧ ¬ graph.Reaches start id)

include outside

private theorem spared {id : String} (reached : graph.Reaches start id) : id ∉ gone := by
  intro deleted
  exact ((outside id).1 deleted).2 reached

theorem reaches_without_iff {first last : String} (reached : graph.Reaches start first) :
    (graph.without gone).Reaches first last ↔ graph.Reaches first last := by
  constructor
  · intro path
    exact Relation.ReflTransGen.mono (fun _ _ call => (calls_without.1 call).1) _ _ path
  · intro path
    induction path with
    | refl => exact .refl
    | tail path call ih =>
      have before := reached.trans path
      exact ih.tail (calls_without.2 ⟨call, spared outside before, spared outside (before.tail call)⟩)

/-- The same nodes are vital. -/
theorem supported_without_iff {id : String} :
    (graph.without gone).Supported start id ↔ graph.Supported start id := by
  constructor
  · intro supported
    obtain ⟨reached, goal, path, normal⟩ := supported
    have reached := (reaches_without_iff outside .refl).1 reached
    exact ⟨reached, goal, (reaches_without_iff outside reached).1 path, kind?_of_without normal⟩
  · intro supported
    obtain ⟨reached, goal, path, normal⟩ := supported
    refine ⟨(reaches_without_iff outside .refl).2 reached, goal, (reaches_without_iff outside reached).2 path, ?_⟩
    rw [kind?_without (spared outside (reached.trans path))]
    exact normal

theorem callees_without_eq {id : String} (known : graph.contains id = true) (reached : graph.Reaches start id) :
    (graph.without gone).callees id = graph.callees id := by
  rw [callees_without, if_neg (spared outside reached), List.filter_eq_self]
  intro callee called
  simpa using spared outside (reached.tail ⟨known, called⟩)

end Behind

/-- Pruning deletes nothing vital, and of the callees of a vital node all that are not. -/
theorem Valid.exists_prune_eq (valid : graph.Valid) (consistent : graph.Consistent)
    (kind : graph.kind? start = some .start) :
    ∃ lost, graph.prune = graph.without lost ∧ (∀ id, graph.Vital start id → graph.contains id = true ∧ id ∉ lost) ∧
      ∀ caller callee, graph.Vital start caller → callee ∈ graph.callees caller →
        (callee ∉ lost ↔ graph.Vital start callee) := by
  obtain ⟨lost, _, pruned⟩ := sheddable_of_sheds consistent (sheds_prune consistent)
  have reaches : ∀ id, graph.prune.Reaches start id ↔ graph.Vital start id :=
    fun _ => valid.reaches_prune_iff consistent kind
  obtain ⟨node, found, _⟩ := kind?_eq_some_iff.1 (valid.supported_prune consistent kind).1
  have kept : ∀ id, graph.Vital start id → graph.contains id = true ∧ id ∉ lost := by
    intro id vital
    have present := (valid.prune consistent).contains_of_reaches (contains_iff.2 ⟨node, found⟩) ((reaches id).2 vital)
    rw [pruned] at present
    exact contains_without.1 present
  refine ⟨lost, pruned, kept, ?_⟩
  intro caller callee vital called
  constructor
  · intro stays
    have call : graph.prune.Calls caller callee := by
      rw [pruned]
      exact calls_without.2 ⟨⟨(kept caller vital).1, called⟩, (kept caller vital).2, stays⟩
    exact (reaches callee).1 (((reaches caller).2 vital).tail call)
  · intro goal
    exact (kept callee goal).2

/-- What is vital is told in the same way. -/
theorem twins_without (valid : graph.Valid) (consistent : graph.Consistent) (kind : graph.kind? start = some .start)
    (outside : ∀ id, id ∈ gone ↔ graph.contains id = true ∧ ¬ graph.Reaches start id)
    (smaller : (graph.without gone).Valid) :
    Twins graph.prune (graph.without gone).prune (graph.Vital start) := by
  have trimmed := consistent.without gone
  have rekind : (graph.without gone).kind? start = some .start := by
    rw [kind?_without (spared outside .refl)]
    exact kind
  have vital : ∀ id, (graph.without gone).Vital start id ↔ graph.Vital start id := by
    intro id
    rw [smaller.vital_iff_supported trimmed, valid.vital_iff_supported consistent, supported_without_iff outside]
  have reached : ∀ id, graph.Vital start id → graph.Reaches start id := by
    intro id needed
    cases needed with
    | start => exact .refl
    | paragraph reached _ => exact reached
    | branch reached _ _ _ _ => exact reached
  obtain ⟨lost, pruned, kept, onward⟩ := valid.exists_prune_eq consistent kind
  obtain ⟨missed, repruned, rekept, reonward⟩ := smaller.exists_prune_eq trimmed rekind
  refine ⟨?_, ?_, ?_⟩
  · intro id needed
    have again := rekept id ((vital id).2 needed)
    rw [pruned, repruned, node?_without, node?_without, node?_without, if_neg (kept id needed).2, if_neg again.2,
      if_neg (spared outside (reached id needed))]
    cases graph.node? id with
    | none => exact .none
    | some node => exact .some (.refl node)
  · intro id needed
    have again := rekept id ((vital id).2 needed)
    have callees := callees_without_eq outside (kept id needed).1 (reached id needed)
    rw [pruned, repruned, callees_without, callees_without missed, if_neg (kept id needed).2, if_neg again.2, callees]
    apply List.filter_congr
    intro callee called
    have first := onward id callee needed called
    have second := reonward id callee ((vital id).2 needed) (callees ▸ called)
    rw [decide_eq_decide, first, second, vital]
  · intro caller callee needed call
    have path := (valid.reaches_prune_iff consistent kind).2 needed
    exact (valid.reaches_prune_iff consistent kind).1 (path.tail call)

/-- Copies are numbered in step, whatever counts as shared. -/
theorem inStep_named {left right : Graph} {shared others : List String} (first : left.DistinctNames)
    (second : right.DistinctNames) :
    InStep left right shared others fun told retold => left.Named told ∧ right.Named retold where
  single named := Narrative.biUnique_of_nodup (named.1.nodup first) (named.2.nodup second)
  tell found copied alike mirrors unsettled named := by
    refine ⟨named.1.tell found unsettled, named.2.tell copied ?_⟩
    rw [← alike.kind, ← alike.id, ← mirrors.tells_eq]
    exact unsettled

theorem Named.numbered_of_mem {narrative : Narrative} (named : graph.Named narrative.roster) {occurrence : Occurrence}
    (member : occurrence ∈ narrative.occurrences) : occurrence.Numbered := by
  by_cases own : occurrence.id = occurrence.node.id
  · exact .inl own
  · obtain ⟨number, positive, _, copy⟩ := named.number (List.mem_map_of_mem member) own
    exact .inr ⟨number, positive, copy⟩

/-- Code that is not reached does not change the narrative: with it removed, the same nodes are told in the same places
and linked with the same places in the same order. Ids are distinct on both sides and differ in numbers only, and
edges between the same places are drawn alike. Of links with one written form just the first is drawn, so the edges
correspond one by one where there are no such links on either side, as when no id has a hyphen. -/
theorem narrative_without_unreached (built : graph.Built) (checked : graph.check = .ok ())
    (distinct : graph.DistinctNames) {entry : Node} (first : graph.entry? = some entry)
    (outside : ∀ id, id ∈ gone ↔ graph.contains id = true ∧ ¬ graph.Reaches entry.id id) :
    ∃ diagram again, graph.diagram = .ok diagram ∧ (gone.foldl Graph.remove graph).diagram = .ok again ∧
      diagram.narrative.Tallies again.narrative ∧ diagram.narrative.ids.Nodup ∧ again.narrative.ids.Nodup ∧
      (∀ occurrence ∈ diagram.narrative.occurrences ++ again.narrative.occurrences, occurrence.Numbered) ∧
      (∀ edge ∈ diagram.edges, ∀ copy ∈ again.edges,
        Edge.Joins diagram.narrative again.narrative edge copy → edge.loopBack = copy.loopBack) ∧
      (diagram.narrative.LinksApart → again.narrative.LinksApart →
        List.Forall₂ (Edge.Tallies diagram.narrative again.narrative) diagram.edges again.edges) ∧
      ((∀ id, graph.contains id = true → '-' ∉ id.toList) →
        diagram.narrative.LinksApart ∧ again.narrative.LinksApart) := by
  have valid := check_eq_ok_iff.1 checked
  have consistent := built.consistent
  obtain ⟨found, starts⟩ := consistent.entry?_node? first
  have kind : graph.kind? entry.id = some .start := kind?_eq_some_iff.2 ⟨entry, found, starts⟩
  have smaller : (graph.without gone).Valid := by
    apply valid.without
    intro node member starting
    obtain ⟨_, begun, _, only⟩ := valid.entry
    cases first.symm.trans begun
    rw [only node member starting]
    exact spared outside .refl
  have trimmed := consistent.without gone
  have rekind : (graph.without gone).kind? entry.id = some .start := by
    rw [kind?_without (spared outside .refl)]
    exact kind
  have fewer : graph.prune.DistinctNames := distinct.mono fun _ present => contains_of_prune present
  have lesser : (graph.without gone).prune.DistinctNames :=
    distinct.mono fun _ present => (contains_without.1 (contains_of_prune present)).1
  obtain ⟨narrative, told⟩ := (valid.prune consistent).narrate
  obtain ⟨opening, begun, same⟩ := (valid.prune consistent).entry?_of_kind? (valid.supported_prune consistent kind).1
  obtain ⟨reopening, rebegun, resame⟩ :=
    (smaller.prune trimmed).entry?_of_kind? (smaller.supported_prune trimmed rekind).1
  obtain ⟨again, retold, mirrors, named, renamed⟩ := (twins_without valid consistent kind outside smaller).narrate
    (inStep_named fewer lesser) begun rebegun (same.trans resame.symm)
    (same ▸ .start) ⟨named_nil _, named_nil _⟩ told
  refine ⟨⟨narrative, narrative.edges⟩, ⟨again, again.edges⟩, ?_, ?_, mirrors.tallies, named.nodup fewer,
    renamed.nodup lesser, ?_, ?_, mirrors.edges, ?_⟩
  · rw [Graph.diagram, told]
    rfl
  · rw [consistent.foldl_remove, Graph.diagram, retold]
    rfl
  · intro occurrence member
    cases List.mem_append.1 member with
    | inl inside => exact named.numbered_of_mem inside
    | inr inside => exact renamed.numbered_of_mem inside
  · intro edge drawn copy redrawn joins
    exact mirrors.loopBack_eq (named.nodup fewer) (renamed.nodup lesser) drawn redrawn joins
  · intro plain
    constructor
    · exact consistent.prune.linksApart begun told fun id present => plain id (contains_of_prune present)
    · apply trimmed.prune.linksApart rebegun retold
      exact fun id present => plain id (contains_without.1 (contains_of_prune present)).1

def unreached (graph : Graph) (start : String) : List String := graph.ids.filter fun id => ¬ graph.Reaches start id

theorem mem_unreached {id : String} :
    id ∈ graph.unreached start ↔ graph.contains id = true ∧ ¬ graph.Reaches start id := by
  rw [unreached, List.mem_filter, decide_eq_true_eq, contains_iff_mem_ids]

/-- Two paragraphs that only call each other, and one of them also a paragraph that the start calls. -/
def forgotten : GraphDoc := ⟨[
  .brief "MAIN" .start [] ["READ", "SAVE"],
  .brief "READ" .normal ["MAIN"] [],
  .brief "SAVE" .normal ["MAIN", "OLD"] ["SEND"],
  .brief "SEND" .normal ["SAVE"] [],
  .brief "OLD" .normal ["OLDER"] ["SAVE", "OLDER"],
  .brief "OLDER" .normal ["OLD"] ["OLD"]]⟩

theorem forgotten_unreached :
    ∃ graph entry diagram again, forgotten.toGraph = .ok graph ∧ graph.Built ∧ graph.check = .ok () ∧
      graph.DistinctNames ∧ graph.entry? = some entry ∧
      (∀ id, id ∈ ["OLD", "OLDER"] ↔ graph.contains id = true ∧ ¬ graph.Reaches entry.id id) ∧
      graph.diagram = .ok diagram ∧ ((graph.remove "OLD").remove "OLDER").diagram = .ok again ∧
      diagram.narrative.ids = ["MAIN", "READ", "SAVE_1", "SEND_1"] ∧ again.narrative.ids = ["MAIN", "READ", "SAVE", "SEND"] ∧
      diagram.narrative.Tallies again.narrative ∧
      List.Forall₂ (Edge.Tallies diagram.narrative again.narrative) diagram.edges again.edges := by
  obtain ⟨graph, read⟩ : ∃ graph, forgotten.toGraph = .ok graph := ⟨_, rfl⟩
  obtain ⟨built, checked⟩ := GraphDoc.built_toGraph read
  obtain ⟨entry, first, _⟩ := (check_eq_ok_iff.1 checked).entry
  have ids : forgotten.toGraph.map Graph.ids = .ok ["MAIN", "READ", "SAVE", "SEND", "OLD", "OLDER"] := rfl
  have start : forgotten.toGraph.map (fun graph => graph.entry?.map Node.id) = .ok (some "MAIN") := rfl
  have gone : forgotten.toGraph.map (fun graph => graph.unreached "MAIN") = .ok ["OLD", "OLDER"] := by cbv
  have told : (forgotten.toGraph.bind Graph.diagram).map (fun diagram => diagram.narrative.ids) =
      .ok ["MAIN", "READ", "SAVE_1", "SEND_1"] := by cbv
  have retold : (forgotten.toGraph.bind fun graph => ((graph.remove "OLD").remove "OLDER").diagram).map
      (fun diagram => diagram.narrative.ids) = .ok ["MAIN", "READ", "SAVE", "SEND"] := by cbv
  simp only [read, first, Except.map, Except.bind, Except.ok.injEq, Option.map_some, Option.some.injEq]
    at ids start gone told retold
  have distinct : graph.DistinctNames := distinctNames_of_plain (by rw [ids]; decide)
  have outside : ∀ id, id ∈ ["OLD", "OLDER"] ↔ graph.contains id = true ∧ ¬ graph.Reaches entry.id id := by
    intro id
    rw [start, ← gone]
    exact mem_unreached
  obtain ⟨diagram, again, drawn, redrawn, tallies, _, _, _, _, edges, apart⟩ :=
    narrative_without_unreached built checked distinct first outside
  have plain : ∀ id, graph.contains id = true → '-' ∉ id.toList := by
    intro id known
    rw [contains_iff_mem_ids, ids] at known
    revert id
    decide
  obtain ⟨here, there⟩ := apart plain
  have removed : ((graph.remove "OLD").remove "OLDER").diagram = .ok again := redrawn
  simp only [drawn, removed, Except.ok.injEq] at told retold
  exact ⟨graph, entry, diagram, again, read, built, checked, distinct, first, outside, drawn, removed, told, retold,
    tallies, edges here there⟩

/-- Two such paragraphs, and one of them also calls a paragraph with a hyphen in its name. -/
def disused : GraphDoc := ⟨[
  .brief "MAIN" .start [] ["LOG", "LOG-OPEN"],
  .brief "LOG" .normal ["MAIN"] ["OPEN-FILE"],
  .brief "OPEN-FILE" .normal ["LOG", "OLD"] [],
  .brief "LOG-OPEN" .normal ["MAIN"] ["FILE"],
  .brief "FILE" .normal ["LOG-OPEN"] [],
  .brief "OLD" .normal ["OLDER"] ["OPEN-FILE", "OLDER"],
  .brief "OLDER" .normal ["OLD"] ["OLD"]]⟩

/-- The number of the copy tells two links apart that have one written form without it. -/
theorem disused_undrawn :
    ∃ graph entry diagram again, disused.toGraph = .ok graph ∧ graph.Built ∧ graph.check = .ok () ∧
      graph.DistinctNames ∧ graph.entry? = some entry ∧
      (∀ id, id ∈ ["OLD", "OLDER"] ↔ graph.contains id = true ∧ ¬ graph.Reaches entry.id id) ∧
      graph.diagram = .ok diagram ∧ ((graph.remove "OLD").remove "OLDER").diagram = .ok again ∧
      diagram.edges = [⟨"MAIN", "LOG", false⟩, ⟨"LOG", "OPEN-FILE_1", false⟩, ⟨"OPEN-FILE_1", "LOG-OPEN", false⟩,
        ⟨"LOG-OPEN", "FILE", false⟩] ∧
      again.edges = [⟨"MAIN", "LOG", false⟩, ⟨"LOG", "OPEN-FILE", false⟩, ⟨"OPEN-FILE", "LOG-OPEN", false⟩] ∧
      ¬ List.Forall₂ (Edge.Tallies diagram.narrative again.narrative) diagram.edges again.edges := by
  obtain ⟨graph, read⟩ : ∃ graph, disused.toGraph = .ok graph := ⟨_, rfl⟩
  obtain ⟨built, checked⟩ := GraphDoc.built_toGraph read
  obtain ⟨entry, first, _⟩ := (check_eq_ok_iff.1 checked).entry
  have ids : disused.toGraph.map Graph.ids =
      .ok ["MAIN", "LOG", "OPEN-FILE", "LOG-OPEN", "FILE", "OLD", "OLDER"] := rfl
  have start : disused.toGraph.map (fun graph => graph.entry?.map Node.id) = .ok (some "MAIN") := rfl
  have shown : disused.toGraph.map (fun graph => (graph.unreached "MAIN", graph.diagram.map Diagram.edges,
      ((graph.remove "OLD").remove "OLDER").diagram.map Diagram.edges)) =
        .ok (["OLD", "OLDER"],
          .ok [⟨"MAIN", "LOG", false⟩, ⟨"LOG", "OPEN-FILE_1", false⟩, ⟨"OPEN-FILE_1", "LOG-OPEN", false⟩,
            ⟨"LOG-OPEN", "FILE", false⟩],
          .ok [⟨"MAIN", "LOG", false⟩, ⟨"LOG", "OPEN-FILE", false⟩, ⟨"OPEN-FILE", "LOG-OPEN", false⟩]) := by cbv
  simp only [read, first, Except.map, Except.ok.injEq, Option.map_some, Option.some.injEq, Prod.mk.injEq]
    at ids start shown
  obtain ⟨gone, drawn, redrawn⟩ := shown
  have distinct : graph.DistinctNames := distinctNames_of_plain (by rw [ids]; decide)
  have outside : ∀ id, id ∈ ["OLD", "OLDER"] ↔ graph.contains id = true ∧ ¬ graph.Reaches entry.id id := by
    intro id
    rw [start, ← gone]
    exact mem_unreached
  split at drawn
  · cases drawn
  next diagram shown =>
  split at redrawn
  · cases redrawn
  next again reshown =>
  have edges := Except.ok.inj drawn
  have fewer := Except.ok.inj redrawn
  refine ⟨graph, entry, diagram, again, read, built, checked, distinct, first, outside, shown, reshown, edges, fewer, ?_⟩
  intro tallies
  have same := tallies.length_eq
  rw [edges, fewer] at same
  cases same

end Graph

end CallChart
