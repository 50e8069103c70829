import Mathlib.Data.List.Nodup
import Mathlib.Tactic.Tauto
import CallChart.Proofs.Reachability

/-! The graphs that can be built: from the empty one, by adding nodes, linking ids and removing ids, in
any order. However a graph was built, its node ids are distinct and both ends of a link agree. Pruning
deletes ids from such a graph, and what it leaves keeps these two facts. -/

namespace CallChart

namespace Graph

/-- The graphs that additions, links and removals make from the empty one. -/
inductive Built : Graph → Prop where
  | empty : Built {}
  | add {graph next : Graph} {node : Node} (built : Built graph) (added : graph.add node = .ok next) : Built next
  | link {graph : Graph} (built : Built graph) (caller callee : String) : Built (graph.link caller callee)
  | remove {graph : Graph} (built : Built graph) (id : String) : Built (graph.remove id)

/-- Node ids are distinct, and a link is recorded on both of its ends. -/
structure Consistent (graph : Graph) : Prop where
  distinct : graph.ids.Nodup
  agree : ∀ caller callee, callee ∈ graph.callees caller ↔ caller ∈ graph.callers callee

variable {graph : Graph}

theorem contains_iff_mem_ids {id : String} : graph.contains id ↔ id ∈ graph.ids := by
  simp only [contains, node?, List.find?_isSome, ids, List.mem_map, decide_eq_true_eq]

theorem node?_of_mem {node : Node} (distinct : graph.ids.Nodup) (member : node ∈ graph.nodes) :
    graph.node? node.id = some node := by
  obtain ⟨other, found⟩ := contains_iff.1 (contains_iff_mem_ids.2 (List.mem_map_of_mem member))
  obtain ⟨inside, named⟩ := node?_some found
  rw [found, List.inj_on_of_nodup_map distinct inside member named]

theorem Consistent.calls_iff_mem_callers (consistent : graph.Consistent) {caller callee : String} :
    graph.Calls caller callee ↔ graph.contains caller = true ∧ caller ∈ graph.callers callee := by
  rw [Calls, consistent.agree]

/-- Who calls an id follows from who calls whom. -/
theorem Consistent.callers_perm {other : Graph} (first : graph.Consistent) (second : other.Consistent)
    (callees : ∀ caller callee, callee ∈ graph.callees caller ↔ callee ∈ other.callees caller) (id : String) :
    (graph.callers id).Perm (other.callers id) := by
  apply (List.perm_ext_iff_of_nodup (OrderedSet.nodup _) (OrderedSet.nodup _)).2
  intro caller
  change caller ∈ graph.callers id ↔ caller ∈ other.callers id
  rw [← first.agree, ← second.agree, callees]

/-- Where nothing calls a start node, no call leads to one. -/
theorem Consistent.kind?_callee (consistent : graph.Consistent)
    (uncalled : ∀ node ∈ graph.nodes, node.kind = .start → graph.callers node.id = []) {caller callee : String}
    (call : graph.Calls caller callee) : graph.kind? callee ≠ some .start := by
  intro kind
  obtain ⟨node, found, starts⟩ := kind?_eq_some_iff.1 kind
  obtain ⟨member, rfl⟩ := node?_some found
  have listed := (consistent.agree caller node.id).1 call.2
  rw [uncalled node member starts] at listed
  cases listed

theorem getD_find?_withEntry (sets : OrderedMap String (OrderedSet String)) (id other : String) :
    ((withEntry sets id).find? other).getD ∅ = (sets.find? other).getD ∅ := by
  rw [withEntry, OrderedMap.find?_insert]
  split
  · next same => rw [same, Option.getD_some]
  · rfl

private theorem getD_find?_deleted (sets : OrderedMap String (OrderedSet String)) (gone : List String) (id : String) :
    ((((sets.filterKeys (· ∉ gone)).mapValues (·.filter (· ∉ gone))).find? id).getD ∅).toList =
      if id ∈ gone then [] else ((sets.find? id).getD ∅).toList.filter (· ∉ gone) := by
  rw [OrderedMap.find?_mapValues, OrderedMap.find?_filterKeys]
  by_cases deleted : id ∈ gone
  · rw [if_pos deleted, if_neg (by simp [deleted])]
    rfl
  · rw [if_neg deleted, if_pos (by simp [deleted])]
    cases sets.find? id <;> rfl

section Removal

variable {sets : OrderedMap String (OrderedSet String)} {ids : List String} {id : String}

theorem keys_withoutMember : (withoutMember sets ids id).keys = sets.keys := by
  unfold withoutMember
  induction ids generalizing sets with
  | nil => rfl
  | cons first rest ih =>
    rw [List.foldl_cons, ih]
    split
    · next set found =>
      have present : first ∈ sets.keys := by
        by_contra absent
        simp [OrderedMap.find?_eq_none_iff.2 absent] at found
      rw [OrderedMap.keys_insert, if_pos present]
    · rfl

theorem find?_withoutMember (other : String) :
    (withoutMember sets ids id).find? other =
      if other ∈ ids then (sets.find? other).map (·.filter (· ≠ id)) else sets.find? other := by
  unfold withoutMember
  induction ids generalizing sets with
  | nil => simp
  | cons first rest ih =>
    rw [List.foldl_cons, ih]
    by_cases here : other = first
    · subst here
      cases found : sets.find? other with
      | none => simp [found]
      | some set =>
        have twice : (set.filter (· ≠ id)).filter (· ≠ id) = set.filter (· ≠ id) := by
          apply OrderedSet.ext
          simp
        simp only [OrderedMap.find?_insert, if_true, Option.map_some, twice, ite_self, List.mem_cons, true_or]
    · cases found : sets.find? first with
      | none => simp only [List.mem_cons, here, false_or]
      | some set => simp only [OrderedMap.find?_insert, if_neg (Ne.symm here), List.mem_cons, here, false_or]

private theorem mem_getD_filter {found : Option (OrderedSet String)} {other : String}
    (member : other ∈ (found.getD ∅).toList) (different : other ≠ id) :
    other ∈ ((found.map fun set : OrderedSet String => set.filter (· ≠ id)).getD ∅).toList := by
  cases found with
  | none => cases member
  | some set => exact OrderedSet.mem_filter.2 ⟨member, by simpa using different⟩

/-- Sets from which a member was taken wherever it was found are those with the member deleted. -/
private theorem eq_deleted {changed : OrderedMap String (OrderedSet String)} (ids : List String)
    (keys : changed.keys = sets.keys.filter (· ≠ id))
    (changes : ∀ other, other ≠ id → changed.find? other =
      if other ∈ ids then (sets.find? other).map (·.filter (· ≠ id)) else sets.find? other)
    (complete : ∀ other, other ≠ id → id ∈ ((sets.find? other).getD ∅).toList → other ∈ ids) :
    changed = (sets.filterKeys (· ∉ [id])).mapValues (·.filter (· ∉ [id])) := by
  apply OrderedMap.ext_getD ∅
  · rw [keys, OrderedMap.keys_mapValues, OrderedMap.keys_filterKeys]
    simp
  · intro other
    rw [OrderedMap.find?_mapValues, OrderedMap.find?_filterKeys]
    by_cases here : other = id
    · have absent : changed.find? other = none := by
        rw [OrderedMap.find?_eq_none_iff, keys, here]
        simp
      rw [absent, if_neg (by simp [here])]
      rfl
    · have kept : decide (other ∉ [id]) = true := by simpa using here
      rw [changes other here, if_pos kept]
      split
      · simp only [List.mem_singleton, ne_eq]
      · next unlisted =>
        cases found : sets.find? other with
        | none => rfl
        | some set =>
          have absent : id ∉ set := by
            intro member
            exact unlisted (complete other here (by rw [found]; exact member))
          apply OrderedSet.ext
          refine (List.filter_eq_self.2 ?_).symm
          intro member inside
          have different : member ≠ id := fun same => absent (same ▸ inside)
          simpa using different

end Removal

theorem callers_without (gone : List String) (id : String) :
    (graph.without gone).callers id = if id ∈ gone then [] else (graph.callers id).filter (· ∉ gone) :=
  getD_find?_deleted graph.callerSets gone id

theorem callees_without (gone : List String) (id : String) :
    (graph.without gone).callees id = if id ∈ gone then [] else (graph.callees id).filter (· ∉ gone) :=
  getD_find?_deleted graph.calleeSets gone id

theorem mem_callers_without {gone : List String} {caller id : String} :
    caller ∈ (graph.without gone).callers id ↔ caller ∈ graph.callers id ∧ caller ∉ gone ∧ id ∉ gone := by
  rw [callers_without]
  split <;> simp_all

theorem mem_callees_without {gone : List String} {callee id : String} :
    callee ∈ (graph.without gone).callees id ↔ callee ∈ graph.callees id ∧ callee ∉ gone ∧ id ∉ gone := by
  rw [callees_without]
  split <;> simp_all

theorem node?_without (gone : List String) (id : String) :
    (graph.without gone).node? id = if id ∈ gone then none else graph.node? id := by
  simp only [node?, without, List.find?_filter]
  split
  · next deleted =>
    rw [List.find?_eq_none]
    intro node _
    by_cases same : node.id = id <;> simp [same, deleted]
  · next kept =>
    congr 1
    funext node
    by_cases same : node.id = id <;> simp [same, kept]

theorem kind?_without {gone : List String} {id : String} (kept : id ∉ gone) :
    (graph.without gone).kind? id = graph.kind? id := by
  rw [kind?, kind?, node?_without, if_neg kept]

theorem contains_without {gone : List String} {id : String} :
    (graph.without gone).contains id ↔ graph.contains id ∧ id ∉ gone := by
  rw [contains, contains, node?_without]
  split <;> simp_all

theorem calls_without {gone : List String} {caller callee : String} :
    (graph.without gone).Calls caller callee ↔ graph.Calls caller callee ∧ caller ∉ gone ∧ callee ∉ gone := by
  simp only [Calls, contains_without, mem_callees_without]
  tauto

theorem ids_without (gone : List String) : (graph.without gone).ids = graph.ids.filter (· ∉ gone) := by
  simp only [ids, without, List.filter_map]
  rfl

section Deletion

private theorem deleted_none (sets : OrderedMap String (OrderedSet String)) :
    (sets.filterKeys (· ∉ ([] : List String))).mapValues (·.filter (· ∉ ([] : List String))) = sets := by
  have same : ∀ set : OrderedSet String, set.filter (· ∉ ([] : List String)) = set := by
    intro set
    apply OrderedSet.ext
    simp
  apply OrderedMap.ext
  simp only [OrderedMap.filterKeys, OrderedMap.mapValues, same]
  simp

theorem without_nil (graph : Graph) : graph.without [] = graph := by
  simp only [without, deleted_none]
  simp

private theorem deleted_twice (sets : OrderedMap String (OrderedSet String)) (first second : List String) :
    (((sets.filterKeys (· ∉ first)).mapValues (·.filter (· ∉ first))).filterKeys (· ∉ second)).mapValues
        (·.filter (· ∉ second)) =
      (sets.filterKeys (· ∉ first ++ second)).mapValues (·.filter (· ∉ first ++ second)) := by
  have same : ∀ set : OrderedSet String,
      (set.filter (· ∉ first)).filter (· ∉ second) = set.filter (· ∉ first ++ second) := by
    intro set
    apply OrderedSet.ext
    simp [List.filter_filter, Bool.and_comm]
  apply OrderedMap.ext
  simp only [OrderedMap.filterKeys, OrderedMap.mapValues, List.filter_map, List.map_map, List.filter_filter]
  congr 1
  · funext entry
    exact congrArg (Prod.mk entry.1) (same entry.2)
  · apply List.filter_congr
    intro entry _
    simp [Bool.and_comm]

theorem without_without (graph : Graph) (first second : List String) :
    (graph.without first).without second = graph.without (first ++ second) := by
  simp only [without, deleted_twice, List.filter_filter]
  congr 1
  apply List.filter_congr
  intro node _
  simp [Bool.and_comm]

theorem without_congr {first second : List String} (same : ∀ id, id ∈ first ↔ id ∈ second) :
    graph.without first = graph.without second := by
  simp only [without, same]

end Deletion

/-- An id is taken, or else the node goes to the end and gets an entry on either side of the links. -/
theorem add_eq_ok_iff {node : Node} {next : Graph} :
    graph.add node = .ok next ↔ node.id ∉ graph.ids ∧ next = {
      nodes := graph.nodes ++ [node]
      callerSets := withEntry graph.callerSets node.id
      calleeSets := withEntry graph.calleeSets node.id } := by
  unfold add
  split
  · next taken => simp [contains_iff_mem_ids.1 taken]
  · next free =>
    have fresh : node.id ∉ graph.ids := fun member => free (contains_iff_mem_ids.2 member)
    simp [fresh, eq_comm]

namespace Consistent

theorem empty : Consistent {} := ⟨List.nodup_nil, fun _ _ => ⟨nofun, nofun⟩⟩

theorem add {next : Graph} {node : Node} (valid : graph.Consistent) (added : graph.add node = .ok next) :
    next.Consistent := by
  obtain ⟨fresh, rfl⟩ := add_eq_ok_iff.1 added
  constructor
  · simp only [ids, List.map_append, List.map_cons, List.map_nil]
    refine List.nodup_append.2 ⟨valid.distinct, by simp, ?_⟩
    intro id member other last same
    rw [List.mem_singleton] at last
    exact fresh (last ▸ same ▸ member)
  · intro caller callee
    simp only [callers, callees, getD_find?_withEntry]
    exact valid.agree caller callee

theorem link (valid : graph.Consistent) (caller callee : String) : (graph.link caller callee).Consistent := by
  refine ⟨valid.distinct, ?_⟩
  intro first second
  rw [mem_callees_link, mem_callers_link, valid.agree]
  tauto

theorem without (valid : graph.Consistent) (gone : List String) : (graph.without gone).Consistent := by
  constructor
  · rw [ids_without]
    exact valid.distinct.filter _
  · intro caller callee
    rw [mem_callees_without, mem_callers_without, valid.agree]
    tauto

theorem prune (valid : graph.Consistent) : graph.prune.Consistent := by
  fun_induction Graph.prune graph with
  | case1 => exact valid
  | case2 graph _ ih => exact ih (valid.without graph.doomed)

/-- Where both ends of a link agree, each side of the links knows every set of the other that names an id, so
removing the id is deleting it. -/
theorem remove_eq (valid : graph.Consistent) (id : String) : graph.remove id = graph.without [id] := by
  have callers : (withoutMember graph.callerSets (graph.callees id) id).filterKeys (· ≠ id) =
      (graph.callerSets.filterKeys (· ∉ [id])).mapValues (·.filter (· ∉ [id])) := by
    apply eq_deleted (graph.callees id)
    · rw [OrderedMap.keys_filterKeys, keys_withoutMember]
    · intro other different
      rw [OrderedMap.find?_filterKeys, if_pos (by simpa using different), find?_withoutMember]
    · intro other _ listed
      exact (valid.agree id other).2 listed
  have callees : withoutMember (graph.calleeSets.filterKeys (· ≠ id))
      (((withoutMember graph.callerSets (graph.callees id) id).find? id).getD ∅).toList id =
      (graph.calleeSets.filterKeys (· ∉ [id])).mapValues (·.filter (· ∉ [id])) := by
    apply eq_deleted (((withoutMember graph.callerSets (graph.callees id) id).find? id).getD ∅).toList
    · rw [keys_withoutMember, OrderedMap.keys_filterKeys]
    · intro other different
      have kept : decide (other ≠ id) = true := by simpa using different
      rw [find?_withoutMember, OrderedMap.find?_filterKeys, if_pos kept]
    · -- The id may have been taken out of its own callers by now; the others are still there.
      intro other different listed
      have caller := (valid.agree other id).1 listed
      rw [find?_withoutMember]
      split
      · exact mem_getD_filter caller different
      · exact caller
  simp only [remove, Graph.without, callers, callees, List.mem_singleton]

/-- Removing ids one after the other deletes all of them. -/
theorem foldl_remove (valid : graph.Consistent) (gone : List String) :
    gone.foldl Graph.remove graph = graph.without gone := by
  induction gone generalizing graph with
  | nil => exact (without_nil graph).symm
  | cons id rest ih =>
    rw [List.foldl_cons, valid.remove_eq, ih (valid.without [id]), without_without]
    rfl

end Consistent

theorem Built.consistent (built : graph.Built) : graph.Consistent := by
  induction built with
  | empty => exact Consistent.empty
  | add _ added ih => exact ih.add added
  | link _ caller callee ih => exact ih.link caller callee
  | remove _ id ih => exact ih.remove_eq id ▸ ih.without [id]

/-- However a graph was built, its nodes have entries on either side of the links. -/
theorem Built.mem_keys (built : graph.Built) {id : String} (known : id ∈ graph.ids) :
    id ∈ graph.callerSets.keys ∧ id ∈ graph.calleeSets.keys := by
  induction built with
  | empty => cases known
  | add _ added ih =>
    obtain ⟨_, rfl⟩ := add_eq_ok_iff.1 added
    simp only [withEntry, OrderedMap.mem_keys_insert]
    simp only [ids, List.map_append, List.mem_append, List.map_cons, List.map_nil, List.mem_singleton] at known
    rcases known with old | new
    · exact ⟨.inr (ih old).1, .inr (ih old).2⟩
    · exact ⟨.inl new, .inl new⟩
  | link _ caller callee ih =>
    simp only [Graph.link, withMember, OrderedMap.mem_keys_insert]
    exact ⟨.inr (ih known).1, .inr (ih known).2⟩
  | remove built gone ih =>
    rw [built.consistent.remove_eq, ids_without] at known
    obtain ⟨old, kept⟩ := List.mem_filter.1 known
    simp only [built.consistent.remove_eq, without, OrderedMap.keys_mapValues, OrderedMap.keys_filterKeys, List.mem_filter]
    exact ⟨⟨(ih old).1, kept⟩, (ih old).2, kept⟩

theorem Consistent.entry?_node? {entry : Node} (valid : graph.Consistent) (first : graph.entry? = some entry) :
    graph.node? entry.id = some entry ∧ entry.kind = .start :=
  ⟨node?_of_mem valid.distinct (List.mem_of_find?_eq_some first), by simpa using List.find?_some first⟩

end Graph

end CallChart
