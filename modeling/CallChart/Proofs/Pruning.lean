import CallChart.Proofs.Checking

/-! What pruning leaves behind the start node. A pass deletes nothing that the start node reaches and
that leads to a paragraph or is one, since every node on the way supports the next. When no pass finds
anything more to delete, the start node reaches nothing else. -/

namespace CallChart

namespace Graph

open Relation

/-- What a diagram has to show: the start node, the paragraphs it reaches, and the structural nodes it
reaches that lead to a paragraph. -/
inductive Vital (graph : Graph) (start : String) : String → Prop where
  | start : Vital graph start start
  | paragraph {id : String} (reached : graph.Reaches start id) (normal : graph.kind? id = some .normal) :
      Vital graph start id
  | branch {id goal : String} {kind : Kind} (reached : graph.Reaches start id) (known : graph.kind? id = some kind)
      (structural : kind.structural = true) (leads : graph.LeadsTo id goal)
      (normal : graph.kind? goal = some .normal) : Vital graph start id

def Supported (graph : Graph) (start id : String) : Prop :=
  graph.Reaches start id ∧ ∃ goal, graph.Reaches id goal ∧ graph.kind? goal = some .normal

variable {graph : Graph} {start id : String}

theorem Supported.of_call {next : String} (supported : graph.Supported start next)
    (reached : graph.Reaches start id) (call : graph.Calls id next) : graph.Supported start id := by
  obtain ⟨_, goal, path, normal⟩ := supported
  exact ⟨reached, goal, .head call path, normal⟩

theorem Reaches.called {first last : String} (path : graph.Reaches first last) (different : first ≠ last) :
    ∃ caller, graph.Calls caller last := by
  cases path with
  | refl => exact absurd rfl different
  | tail _ call => exact ⟨_, call⟩

theorem Reaches.leadsTo {first last : String} (path : graph.Reaches first last) (different : first ≠ last) :
    graph.LeadsTo first last := by
  rcases reflTransGen_iff_eq_or_transGen.1 path with same | path
  · exact absurd same.symm different
  · exact path

namespace Valid

theorem kind?_callee (valid : graph.Valid) (consistent : graph.Consistent) {caller callee : String}
    (call : graph.Calls caller callee) : graph.kind? callee ≠ some .start := by
  obtain ⟨entry, _, uncalled, only⟩ := valid.entry
  refine consistent.kind?_callee (fun node member starts => ?_) call
  rw [only node member starts]
  exact uncalled

theorem vital_iff_supported (valid : graph.Valid) (consistent : graph.Consistent) :
    graph.Vital start id ↔ id = start ∨ graph.Supported start id := by
  constructor
  · intro vital
    cases vital with
    | start => exact Or.inl rfl
    | paragraph reached normal => exact Or.inr ⟨reached, id, .refl, normal⟩
    | branch reached _ _ leads normal => exact Or.inr ⟨reached, _, leads.to_reflTransGen, normal⟩
  · rintro (rfl | ⟨reached, goal, path, normal⟩)
    · exact .start
    · by_cases same : id = start
      · exact same ▸ .start
      by_cases last : id = goal
      · exact .paragraph reached (last ▸ normal)
      -- The kind of an id on the way decides which of the two rules applies.
      obtain ⟨caller, call⟩ := reached.called (Ne.symm same)
      obtain ⟨node, found⟩ := contains_iff.1 (valid.contains_of_mem_callees call.2).2
      have known := kind?_eq_some_iff.2 ⟨node, found, rfl⟩
      cases kind : node.kind with
      | start => exact absurd (kind ▸ known) (valid.kind?_callee consistent call)
      | normal => exact .paragraph reached (kind ▸ known)
      | condition | conditionElse | loop =>
        exact .branch reached known (by simp [kind, Kind.structural]) (path.leadsTo last) normal

/-- No pass deletes an id between the start node and a paragraph: the call that leads to it and the calls
that lead on from it keep it alive. -/
theorem not_mem_doomed (valid : graph.Valid) (consistent : graph.Consistent)
    (kind : graph.kind? start = some .start) (supported : graph.Supported start id) : id ∉ graph.doomed := by
  intro deleted
  obtain ⟨node, dead, rfl⟩ := List.mem_map.1 deleted
  obtain ⟨member, dead⟩ := List.mem_filter.1 dead
  have found := node?_of_mem consistent.distinct member
  have known := kind?_eq_some_iff.2 ⟨node, found, rfl⟩
  obtain ⟨reached, goal, path, normal⟩ := supported
  have called : node.kind ≠ .start → graph.callers node.id ≠ [] := by
    intro different none
    obtain ⟨caller, call⟩ := reached.called (by rintro rfl; exact different (Option.some.inj (known.symm.trans kind)))
    have listed := (consistent.agree caller node.id).1 call.2
    simp [none] at listed
  have leads : node.kind ≠ .normal → graph.callees node.id ≠ [] ∧ graph.reachesNormal node.id := by
    intro different
    have leads := path.leadsTo (by rintro rfl; exact different (Option.some.inj (known.symm.trans normal)))
    obtain ⟨callee, call, _⟩ := TransGen.head'_iff.1 leads
    refine ⟨List.ne_nil_of_mem call.2, ?_⟩
    exact (reachesNormal_iff (fun _ _ => valid.kind?_callee consistent) call.1).2 ⟨goal, leads, normal⟩
  cases shape : node.kind <;> simp_all [Graph.dead]

private theorem reaches_without (valid : graph.Valid) (consistent : graph.Consistent)
    (kind : graph.kind? start = some .start) {first last : String} (behind : graph.Reaches start first)
    (path : graph.Reaches first last) (supported : graph.Supported start last) :
    (graph.without graph.doomed).Reaches first last := by
  induction path with
  | refl => exact .refl
  | @tail before last path call ih =>
    have earlier := supported.of_call (behind.trans path) call
    refine (ih earlier).tail (calls_without.2 ⟨call, ?_, ?_⟩)
    · exact valid.not_mem_doomed consistent kind earlier
    · exact valid.not_mem_doomed consistent kind supported

theorem supported_without (valid : graph.Valid) (consistent : graph.Consistent)
    (kind : graph.kind? start = some .start) :
    (graph.without graph.doomed).Supported start id ↔ graph.Supported start id := by
  have fewer : ∀ {first last}, (graph.without graph.doomed).Reaches first last → graph.Reaches first last :=
    fun path => ReflTransGen.mono (fun _ _ call => (calls_without.1 call).1) _ _ path
  constructor
  · rintro ⟨reached, goal, path, normal⟩
    obtain ⟨node, found, normal⟩ := kind?_eq_some_iff.1 normal
    rw [node?_without] at found
    split at found
    · cases found
    · exact ⟨fewer reached, goal, fewer path, kind?_eq_some_iff.2 ⟨node, found, normal⟩⟩
  · rintro ⟨reached, goal, path, normal⟩
    have last : graph.Supported start goal := ⟨reached.trans path, goal, .refl, normal⟩
    refine ⟨reaches_without valid consistent kind .refl reached ⟨reached, goal, path, normal⟩, goal,
      reaches_without valid consistent kind reached path last, ?_⟩
    rw [kind?_without (valid.not_mem_doomed consistent kind last)]
    exact normal

theorem supported_prune (valid : graph.Valid) (consistent : graph.Consistent)
    (kind : graph.kind? start = some .start) :
    graph.prune.kind? start = some .start ∧
      ∀ id, graph.prune.Supported start id ↔ graph.Supported start id := by
  fun_induction Graph.prune graph with
  | case1 => exact ⟨kind, fun _ => Iff.rfl⟩
  | case2 graph _ ih =>
    have spared := consistent.start_not_mem_doomed kind
    obtain ⟨kept, same⟩ := ih (valid.pass consistent) (consistent.without _) ((kind?_without spared).trans kind)
    exact ⟨kept, fun id => (same id).trans (valid.supported_without consistent kind)⟩

end Valid

theorem doomed_prune (graph : Graph) : graph.prune.doomed = [] := by
  fun_induction Graph.prune graph with
  | case1 _ alive => exact alive
  | case2 _ _ ih => exact ih

theorem contains_of_prune {id : String} (present : graph.prune.contains id = true) : graph.contains id = true := by
  fun_induction prune graph with
  | case1 => exact present
  | case2 _ _ ih => exact (contains_without.1 (ih present)).1

/-- Where nothing is dead, everything behind the start node is supported. -/
private theorem supported_of_reaches (valid : graph.Valid) (consistent : graph.Consistent)
    (alive : graph.doomed = []) (reached : graph.Reaches start id) (different : start ≠ id) :
    graph.Supported start id := by
  obtain ⟨caller, call⟩ := reached.called different
  obtain ⟨node, found⟩ := contains_iff.1 (valid.contains_of_mem_callees call.2).2
  obtain ⟨member, named⟩ := node?_some found
  have living : graph.dead node = false := by
    by_contra dead
    have deleted : node.id ∈ graph.doomed :=
      List.mem_map_of_mem (List.mem_filter.2 ⟨member, by simpa using dead⟩)
    simp [alive] at deleted
  have known := kind?_eq_some_iff.2 ⟨node, found, rfl⟩
  cases kind : node.kind with
  | start => exact absurd (kind ▸ known) (valid.kind?_callee consistent call)
  | normal => exact ⟨reached, id, .refl, kind ▸ known⟩
  | condition | conditionElse | loop =>
    have below : graph.reachesNormal id := by simp_all [Graph.dead]
    obtain ⟨goal, leads, normal⟩ :=
      (reachesNormal_iff (fun _ _ => valid.kind?_callee consistent) (contains_iff.2 ⟨node, found⟩)).1 below
    exact ⟨reached, goal, leads.to_reflTransGen, normal⟩

/-- In the pruned graph, the start node reaches exactly what a diagram has to show. -/
theorem Valid.reaches_prune_iff (valid : graph.Valid) (consistent : graph.Consistent)
    (kind : graph.kind? start = some .start) :
    graph.prune.Reaches start id ↔ graph.Vital start id := by
  rw [valid.vital_iff_supported consistent, ← (valid.supported_prune consistent kind).2 id]
  constructor
  · intro reached
    by_cases same : id = start
    · exact Or.inl same
    · exact Or.inr (supported_of_reaches (valid.prune consistent) consistent.prune graph.doomed_prune reached
        (Ne.symm same))
  · rintro (rfl | supported)
    · exact .refl
    · exact supported.1

end Graph

end CallChart
