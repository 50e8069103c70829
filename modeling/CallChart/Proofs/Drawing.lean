import CallChart.Proofs.Connection
import CallChart.Proofs.Cycles

/-! Which links are drawn. An edge is known by its written form, the two ids with a hyphen between them, and of several
links with one written form only the first gets an edge. So each written form is drawn once, and each link is
drawn exactly where written forms tell links apart. Ids without hyphens see to that. -/

namespace CallChart

namespace Narrative

variable {narrative : Narrative}

/-- No two links have the same written form. -/
def LinksApart (narrative : Narrative) : Prop :=
  ∀ source target other goal, narrative.Linked source target → narrative.Linked other goal →
    source ++ "-" ++ target = other ++ "-" ++ goal → source = other ∧ target = goal

theorem LinksApart.id_eq_iff (apart : narrative.LinksApart) {edge other : Edge}
    (link : narrative.Linked edge.source edge.target) (second : narrative.Linked other.source other.target) :
    edge.id = other.id ↔ edge.source = other.source ∧ edge.target = other.target := by
  constructor
  · intro same
    exact apart _ _ _ _ link second same
  · intro ends
    rw [Edge.id, ends.1, ends.2, Edge.id]

theorem linked_of_edge {edge : Edge} (drawn : edge ∈ narrative.edges) : narrative.Linked edge.source edge.target := by
  obtain ⟨position, occurrence, located, leaves, follows, _⟩ := narrative.edges_sound drawn
  exact ⟨occurrence, List.mem_of_getElem? located, leaves.symm, follows⟩

/-- Every written form of a link is drawn once. -/
theorem countP_written {source target : String} (link : narrative.Linked source target) :
    narrative.edges.countP (fun edge => edge.id = source ++ "-" ++ target) = 1 := by
  obtain ⟨occurrence, member, rfl, follows⟩ := link
  obtain ⟨position, located⟩ := List.getElem?_of_mem member
  have drawn : occurrence.id ++ "-" ++ target ∈ narrative.edges.map Edge.id := by
    refine mem_keys_distinctOn.2 ⟨?_, List.not_mem_nil⟩
    refine List.mem_map.2 ⟨⟨occurrence.id, target, narrative.returnsTo target position⟩, ?_, rfl⟩
    refine List.mem_flatMap.2 ⟨(occurrence, position), List.mk_mem_zipIdx_iff_getElem?.2 (by simpa using located), ?_⟩
    exact List.mem_map_of_mem follows
  have once := List.count_eq_one_of_mem nodup_keys_distinctOn drawn
  rw [List.count, List.countP_map] at once
  rw [← once]
  apply List.countP_congr
  intro edge _
  simp

/-- Every link is drawn once exactly where written forms tell links apart. -/
theorem countP_link_iff :
    (∀ source target, narrative.Linked source target →
      narrative.edges.countP (fun edge => edge.source = source ∧ edge.target = target) = 1) ↔ narrative.LinksApart := by
  constructor
  · intro once source target other goal link second same
    obtain ⟨edge, drawn, ends⟩ := List.countP_pos_iff.1 (Nat.lt_of_lt_of_eq Nat.one_pos (once source target link).symm)
    obtain ⟨twin, also, others⟩ := List.countP_pos_iff.1 (Nat.lt_of_lt_of_eq Nat.one_pos (once other goal second).symm)
    obtain ⟨rfl, rfl⟩ := of_decide_eq_true ends
    obtain ⟨rfl, rfl⟩ := of_decide_eq_true others
    obtain rfl := List.inj_on_of_nodup_map nodup_keys_distinctOn drawn also same
    exact ⟨rfl, rfl⟩
  · intro apart source target link
    rw [← countP_written link]
    apply List.countP_congr
    intro edge drawn
    simp only [decide_eq_true_eq]
    constructor
    · intro ends
      rw [Edge.id, ends.1, ends.2]
    · intro same
      exact apart _ _ _ _ (linked_of_edge drawn) link same

/-- Where written forms tell links apart and ids are distinct, the edges are the links, each with its direction. -/
theorem mem_edges_iff (distinct : narrative.ids.Nodup) (apart : narrative.LinksApart) {edge : Edge} :
    edge ∈ narrative.edges ↔ ∃ (position : Nat) (occurrence : Occurrence),
      narrative.occurrences[position]? = some occurrence ∧ edge.source = occurrence.id ∧ edge.target ∈ occurrence.next ∧
        edge.loopBack = narrative.returnsTo edge.target position := by
  constructor
  · exact narrative.edges_sound
  · intro leads
    obtain ⟨position, occurrence, located, leaves, follows, flag⟩ := leads
    have placed : (occurrence, position) ∈ narrative.occurrences.zipIdx :=
      List.mk_mem_zipIdx_iff_getElem?.2 (by simpa using located)
    have link : narrative.Linked edge.source edge.target := ⟨occurrence, List.mem_of_getElem? located, leaves.symm, follows⟩
    apply mem_distinctOn ?_ List.not_mem_nil
    · intro other listed same
      obtain ⟨⟨origin, index⟩, elsewhere, chosen⟩ := List.mem_flatMap.1 listed
      obtain ⟨target, next, rfl⟩ := List.mem_map.1 chosen
      have there : narrative.occurrences[index]? = some origin := by
        simpa using List.mk_mem_zipIdx_iff_getElem?.1 elsewhere
      obtain ⟨first, second⟩ := apart _ _ _ _ ⟨origin, List.mem_of_getElem? there, rfl, next⟩ link same
      -- One id stands in one place, so the two links have the same direction.
      have here : narrative.ids[position]? = some origin.id := by simp [ids, located, first, leaves]
      obtain rfl : index = position :=
        index_unique (not_ambiguous_of_nodup distinct origin.id) (by simp [ids, there]) here
      rw [second, first, ← flag]
    · refine List.mem_flatMap.2 ⟨(occurrence, position), placed, List.mem_map.2 ⟨edge.target, follows, ?_⟩⟩
      rw [← leaves, ← flag]

theorem linksApart_of_plain (plain : ∀ source target, narrative.Linked source target → '-' ∉ target.toList) :
    narrative.LinksApart := by
  intro source target other goal link second same
  have letters := congrArg String.toList same
  simp only [String.toList_append, List.append_assoc] at letters
  obtain ⟨sources, targets⟩ := divided_unique (plain source target link) (plain other goal second) letters
  exact ⟨String.toList_inj.1 sources, String.toList_inj.1 targets⟩

end Narrative

namespace Graph

variable {graph : Graph}

theorem Consistent.linksApart (consistent : graph.Consistent) {entry : Node} (first : graph.entry? = some entry)
    {narrative : Narrative} (told : graph.narrate = .ok narrative)
    (plain : ∀ id, graph.contains id = true → '-' ∉ id.toList) : narrative.LinksApart := by
  have paired := consistent.paired first told
  apply Narrative.linksApart_of_plain
  intro source target link
  obtain ⟨occurrence, member, _, follows⟩ := link
  exact (named_of_narrate told).plain plain (paired.mem_ids member (Or.inr follows))

theorem plain_of_nodes (plain : ∀ node ∈ graph.nodes, '-' ∉ node.id.toList) {id : String}
    (known : graph.contains id = true) : '-' ∉ id.toList := by
  obtain ⟨node, member, rfl⟩ := List.mem_map.1 (contains_iff_mem_ids.1 known)
  exact plain node member

/-- Edges are drawn for links only. Each written form of a link is drawn once, and each link is drawn once exactly where
no two links have the same written form. Ids without hyphens are enough for that. -/
theorem edges_draw_links (built : graph.Built) (checked : graph.check = .ok ()) :
    ∃ narrative, graph.narrate = .ok narrative ∧
      (∀ edge ∈ narrative.edges, ∃ occurrence ∈ narrative.occurrences,
        edge.source = occurrence.id ∧ edge.target ∈ occurrence.next) ∧
      (∀ occurrence ∈ narrative.occurrences, ∀ target ∈ occurrence.next,
        narrative.edges.countP (fun edge => edge.id = occurrence.id ++ "-" ++ target) = 1) ∧
      ((∀ occurrence ∈ narrative.occurrences, ∀ target ∈ occurrence.next,
          narrative.edges.countP (fun edge => edge.source = occurrence.id ∧ edge.target = target) = 1) ↔
        narrative.LinksApart) ∧
      ((∀ node ∈ graph.nodes, '-' ∉ node.id.toList) → narrative.LinksApart) := by
  have valid := check_eq_ok_iff.1 checked
  obtain ⟨narrative, told⟩ := valid.narrate
  obtain ⟨start, begins, _⟩ := valid.entry
  refine ⟨narrative, told, ?_, ?_, ?_, ?_⟩
  · intro edge drawn
    obtain ⟨occurrence, member, named, follows⟩ := Narrative.linked_of_edge drawn
    exact ⟨occurrence, member, named.symm, follows⟩
  · intro occurrence member target follows
    exact Narrative.countP_written ⟨occurrence, member, rfl, follows⟩
  · rw [← Narrative.countP_link_iff]
    constructor
    · intro once source target link
      obtain ⟨occurrence, member, rfl, follows⟩ := link
      exact once occurrence member target follows
    · intro once occurrence member target follows
      exact once occurrence.id target ⟨occurrence, member, rfl, follows⟩
  · intro plain
    exact built.consistent.linksApart begins told fun id => plain_of_nodes plain

theorem sharing_drawn :
    ∃ graph narrative, sharing.toGraph = .ok graph ∧ graph.Built ∧ graph.check = .ok () ∧
      graph.narrate = .ok narrative ∧ narrative.LinksApart ∧
      (∀ occurrence ∈ narrative.occurrences, ∀ target ∈ occurrence.next,
        narrative.edges.countP (fun edge => edge.source = occurrence.id ∧ edge.target = target) = 1) ∧
      narrative.edges = [⟨"MAIN", "READ", false⟩, ⟨"READ", "SAVE_1", false⟩, ⟨"SAVE_1", "SEND", false⟩,
        ⟨"SEND", "SAVE_2", false⟩] := by
  obtain ⟨graph, read⟩ : ∃ graph, sharing.toGraph = .ok graph := ⟨_, rfl⟩
  obtain ⟨built, checked⟩ := GraphDoc.built_toGraph read
  obtain ⟨narrative, told, _, _, once, plain⟩ := edges_draw_links built checked
  have nodes : sharing.toGraph.map Graph.nodes = .ok (sharing.nodes.map NodeDoc.node) := rfl
  have edges : (sharing.toGraph.bind Graph.narrate).map Narrative.edges =
      .ok [⟨"MAIN", "READ", false⟩, ⟨"READ", "SAVE_1", false⟩, ⟨"SAVE_1", "SEND", false⟩,
        ⟨"SEND", "SAVE_2", false⟩] := by cbv
  simp only [read, told, Except.map, Except.bind, Except.ok.injEq] at nodes edges
  have apart : narrative.LinksApart := plain (by rw [nodes]; decide)
  exact ⟨graph, narrative, read, built, checked, told, apart, once.2 apart, edges⟩

def hyphenated : GraphDoc := ⟨[
  .brief "MAIN" .start [] ["LOG", "LOG-OPEN"],
  .brief "LOG" .normal ["MAIN"] ["OPEN-FILE"],
  .brief "OPEN-FILE" .normal ["LOG"] [],
  .brief "LOG-OPEN" .normal ["MAIN"] ["FILE"],
  .brief "FILE" .normal ["LOG-OPEN"] []]⟩

/-- Two links have one written form, so the second is not drawn, and nothing leads to its target. -/
theorem hyphenated_undrawn :
    ∃ graph narrative occurrence, hyphenated.toGraph = .ok graph ∧ graph.Built ∧ graph.check = .ok () ∧
      graph.narrate = .ok narrative ∧ occurrence ∈ narrative.occurrences ∧ occurrence.id = "LOG-OPEN" ∧
      "FILE" ∈ occurrence.next ∧
      narrative.edges = [⟨"MAIN", "LOG", false⟩, ⟨"LOG", "OPEN-FILE", false⟩, ⟨"OPEN-FILE", "LOG-OPEN", false⟩] ∧
      narrative.edges.countP (fun edge => edge.source = "LOG-OPEN" ∧ edge.target = "FILE") = 0 := by
  obtain ⟨graph, read⟩ : ∃ graph, hyphenated.toGraph = .ok graph := ⟨_, rfl⟩
  obtain ⟨built, checked⟩ := GraphDoc.built_toGraph read
  obtain ⟨narrative, told⟩ := (check_eq_ok_iff.1 checked).narrate
  have shown : (hyphenated.toGraph.bind Graph.narrate).map (fun narrative => (narrative.edges,
      narrative.occurrences.any fun occurrence => occurrence.id = "LOG-OPEN" && "FILE" ∈ occurrence.next)) =
      .ok ([⟨"MAIN", "LOG", false⟩, ⟨"LOG", "OPEN-FILE", false⟩, ⟨"OPEN-FILE", "LOG-OPEN", false⟩], true) := by cbv
  simp only [read, told, Except.map, Except.bind, Except.ok.injEq, Prod.mk.injEq, List.any_eq_true, Bool.and_eq_true,
    decide_eq_true_eq] at shown
  obtain ⟨edges, occurrence, member, named, follows⟩ := shown
  exact ⟨graph, narrative, occurrence, read, built, checked, told, member, named, follows, edges, by simp [edges]⟩

end Graph

end CallChart
