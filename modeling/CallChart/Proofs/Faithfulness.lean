import CallChart.Diagram.Basic
import CallChart.Proofs.Naming
import CallChart.Proofs.Pruning

/-! Diagrams are faithful to their graphs, in nodes and in links. Pruning keeps a checked graph checked, so the
walk succeeds on what it leaves; the walk tells all that is behind the start node there, and that is
what was vital before. Links are stated of ids, so what a link says about nodes needs distinct ids. -/

namespace CallChart

namespace Graph

variable {graph : Graph}

theorem Valid.entry?_prune (valid : graph.Valid) (consistent : graph.Consistent) {start : Node}
    (first : graph.entry? = some start) : ∃ entry, graph.prune.entry? = some entry ∧ entry.id = start.id := by
  obtain ⟨found, starts⟩ := consistent.entry?_node? first
  have kept := (valid.supported_prune consistent (kind?_eq_some_iff.2 ⟨start, found, starts⟩)).1
  exact (valid.prune consistent).entry?_of_kind? kept

theorem Valid.diagram (valid : graph.Valid) (consistent : graph.Consistent) :
    ∃ narrative start, graph.diagram = .ok { narrative, edges := narrative.edges } ∧ graph.entry? = some start ∧
      graph.prune.narrate = .ok narrative ∧ graph.prune.Tells start.id narrative := by
  obtain ⟨narrative, told⟩ := (valid.prune consistent).narrate
  obtain ⟨start, first, _⟩ := valid.entry
  obtain ⟨entry, begun, same⟩ := valid.entry?_prune consistent first
  refine ⟨narrative, start, ?_, first, told, same ▸ consistent.prune.tells begun told⟩
  rw [Graph.diagram, told]
  rfl

/-- Pruning keeps a checked graph checked, and its diagram has an occurrence of each vital node and of no
other node. -/
theorem diagram_tells_vital (built : graph.Built) (checked : graph.check = .ok ()) :
    graph.prune.check = .ok () ∧
      ∃ diagram start, graph.diagram = .ok diagram ∧ graph.entry? = some start ∧
        ∀ id, (∃ occurrence ∈ diagram.narrative.occurrences, occurrence.node.id = id) ↔ graph.Vital start.id id := by
  have valid := check_eq_ok_iff.1 checked
  have consistent := built.consistent
  refine ⟨check_eq_ok_iff.2 (valid.prune consistent), ?_⟩
  obtain ⟨narrative, start, drawn, first, _, told⟩ := valid.diagram consistent
  obtain ⟨found, starts⟩ := consistent.entry?_node? first
  refine ⟨_, start, drawn, first, fun id => ?_⟩
  rw [← valid.reaches_prune_iff consistent (kind?_eq_some_iff.2 ⟨start, found, starts⟩), ← told.tells_iff]
  simp [Narrative.tells]

/-- A loop and a condition around one paragraph, an ELSE branch that leads nowhere and a paragraph that
nothing calls. -/
def partlyDead : GraphDoc := ⟨[
  .brief "MAIN" .start [] ["LOOP", "IF", "SAVE"],
  .brief "LOOP" .loop ["MAIN"] ["SAVE", "ELSE"],
  .brief "ELSE" .conditionElse ["LOOP"] [],
  .brief "IF" .condition ["MAIN"] ["SAVE"],
  .brief "SAVE" .normal ["MAIN", "LOOP", "IF"] [],
  .brief "SPARE" .normal [] []]⟩

theorem partlyDead_vital :
    ∃ graph diagram, partlyDead.toGraph = .ok graph ∧ graph.Built ∧ graph.check = .ok () ∧
      graph.prune.check = .ok () ∧ graph.diagram = .ok diagram ∧
      ∀ id, graph.Vital "MAIN" id ↔ id ∈ ["MAIN", "LOOP", "SAVE", "IF", "SAVE", "SAVE"] := by
  obtain ⟨graph, read⟩ : ∃ graph, partlyDead.toGraph = .ok graph := ⟨_, rfl⟩
  obtain ⟨built, checked⟩ := GraphDoc.built_toGraph read
  obtain ⟨pruned, diagram, start, drawn, first, told⟩ := diagram_tells_vital built checked
  have entry : partlyDead.toGraph.map (fun graph => graph.entry?.map Node.id) = .ok (some "MAIN") := rfl
  have listed : partlyDead.toGraph.bind (fun graph => graph.diagram.map fun diagram =>
      diagram.narrative.occurrences.map fun occurrence => occurrence.node.id) =
        .ok ["MAIN", "LOOP", "SAVE", "IF", "SAVE", "SAVE"] := by cbv
  simp only [read, drawn, first, Except.map, Except.bind, Except.ok.injEq, Option.map_some, Option.some.injEq]
    at entry listed
  refine ⟨graph, diagram, read, built, checked, pruned, drawn, fun id => ?_⟩
  rw [← listed, List.mem_map, told id, entry]

section Links

variable {narrative : Narrative}

theorem node_of_roster (distinct : narrative.ids.Nodup) {occurrence : Occurrence}
    (member : occurrence ∈ narrative.occurrences) {node : Node} (listed : (occurrence.id, node) ∈ narrative.roster) :
    node = occurrence.node := by
  rw [Narrative.ids_eq_roster] at distinct
  have own : (occurrence.id, occurrence.node) ∈ narrative.roster := List.mem_map_of_mem member
  cases List.inj_on_of_nodup_map distinct listed own rfl
  rfl

private theorem calls_of_link (distinct : narrative.ids.Nodup) (sound : graph.Sound narrative)
    {source target : Occurrence} (leaves : source ∈ narrative.occurrences) (arrives : target ∈ narrative.occurrences)
    (link : target.id ∈ source.next) :
    target.node.id ∈ graph.callees source.node.id ∨
      (∃ parent done later, graph.contains parent = true ∧ graph.callees parent = done ++ target.node.id :: later ∧
        ∃ earlier ∈ done, graph.Reaches earlier source.node.id) ∨
      (target.node.kind = .loop ∧ graph.Reaches target.node.id source.node.id) := by
  cases sound source.id target.id ⟨source, leaves, rfl, link⟩ with
  | @sequel _ _ origin goal parent done later exits enters known listed continues =>
    obtain rfl := node_of_roster distinct leaves (List.mem_of_getElem? exits)
    obtain rfl := node_of_roster distinct arrives (List.mem_of_getElem? enters)
    rcases continues with rfl | earlier
    · exact Or.inl (by simp [listed])
    · exact Or.inr (Or.inl ⟨parent, done, later, known, listed, earlier⟩)
  | back exits enters loop body =>
    obtain rfl := node_of_roster distinct leaves exits
    obtain rfl := node_of_roster distinct arrives enters
    exact Or.inr (Or.inr ⟨loop, body⟩)

private theorem link_of_call (distinct : narrative.ids.Nodup) {parent callee : String} {done : List String}
    (narrated : graph.Narrated narrative parent done callee) :
    ∃ source ∈ narrative.occurrences, ∃ target ∈ narrative.occurrences,
      target.node.id = callee ∧ target.id ∈ source.next ∧
        (source.node.id = parent ∨ ∃ earlier ∈ done, graph.Reaches earlier source.node.id) := by
  obtain ⟨_, _, goal, ⟨source, leaves, rfl, link⟩, ⟨origin, listed, place⟩, reached, named⟩ := narrated
  obtain rfl := node_of_roster distinct leaves listed
  obtain ⟨target, arrives, same⟩ := List.mem_map.1 reached
  cases same
  exact ⟨source, leaves, target, arrives, named, link, place⟩

/-- The links of a narrative are sound and complete: each of them stands for a call or returns to a loop, and
each call behind the entry has one. -/
theorem links_follow_calls (built : graph.Built) (distinct : graph.DistinctNames) (told : graph.narrate = .ok narrative) :
    (∀ source ∈ narrative.occurrences, ∀ target ∈ narrative.occurrences, target.id ∈ source.next →
      target.node.id ∈ graph.callees source.node.id ∨
        (∃ parent done later, graph.contains parent = true ∧ graph.callees parent = done ++ target.node.id :: later ∧
          ∃ earlier ∈ done, graph.Reaches earlier source.node.id) ∨
        (target.node.kind = .loop ∧ graph.Reaches target.node.id source.node.id)) ∧
      ∃ entry, graph.entry? = some entry ∧ ∀ parent, graph.Reaches entry.id parent →
        ∀ done callee later, graph.callees parent = done ++ callee :: later →
          ∃ source ∈ narrative.occurrences, ∃ target ∈ narrative.occurrences,
            target.node.id = callee ∧ target.id ∈ source.next ∧
              (source.node.id = parent ∨ ∃ earlier ∈ done, graph.Reaches earlier source.node.id) := by
  have nodup := (named_of_narrate told).nodup distinct
  obtain ⟨entry, _, _, first, _⟩ := narrate_eq_ok told
  have tells := built.consistent.tells first told
  refine ⟨fun source leaves target arrives => calls_of_link nodup tells.sound leaves arrives, entry, first, ?_⟩
  intro parent path done callee later listed
  obtain ⟨name, node, member, rfl⟩ := Narrative.tells_iff.1 (tells.tells_iff.2 path)
  exact link_of_call nodup (tells.complete name node member done callee later listed)

/-- The condition's call is linked from the condition itself, though the loop before it calls the same paragraph. -/
theorem partlyDead_links :
    ∃ graph narrative, partlyDead.toGraph = .ok graph ∧ graph.Built ∧ graph.DistinctNames ∧
      graph.narrate = .ok narrative ∧ graph.Reaches "MAIN" "IF" ∧
      ∃ source ∈ narrative.occurrences, ∃ target ∈ narrative.occurrences,
        target.node.id = "SAVE" ∧ target.id ∈ source.next ∧ source.node.id = "IF" := by
  obtain ⟨graph, read⟩ : ∃ graph, partlyDead.toGraph = .ok graph := ⟨_, rfl⟩
  obtain ⟨built, checked⟩ := GraphDoc.built_toGraph read
  obtain ⟨narrative, told⟩ := (check_eq_ok_iff.1 checked).narrate
  have nodes : partlyDead.toGraph.map (fun graph => (graph.ids, graph.entry?.map Node.id)) =
      .ok (["MAIN", "LOOP", "ELSE", "IF", "SAVE", "SPARE"], some "MAIN") := rfl
  have calls : partlyDead.toGraph.map (fun graph => (graph.callees "MAIN", graph.callees "IF")) =
      .ok (["LOOP", "IF", "SAVE"], ["SAVE"]) := rfl
  simp only [read, Except.map, Except.ok.injEq, Prod.mk.injEq] at nodes calls
  have distinct : graph.DistinctNames := distinctNames_of_plain (by rw [nodes.1]; decide)
  have path : graph.Reaches "MAIN" "IF" :=
    .single ⟨contains_iff_mem_ids.2 (by rw [nodes.1]; decide), by rw [calls.1]; decide⟩
  obtain ⟨_, entry, first, complete⟩ := links_follow_calls built distinct told
  have named : entry.id = "MAIN" := by simpa [first] using nodes.2
  obtain ⟨source, leaves, target, arrives, callee, link, place⟩ := complete "IF" (named ▸ path) [] "SAVE" [] calls.2
  exact ⟨graph, narrative, read, built, distinct, told, path, source, leaves, target, arrives, callee, link,
    place.resolve_right (by simp)⟩

end Links

end Graph

end CallChart
