import CallChart.Graph.Check
import CallChart.Proofs.Building

/-! What the check of a graph guarantees. The check reports no fault exactly if text ranges run forward,
one node is the start and nothing calls it, and all ids in links are nodes. Deleting ids other than the
start's keeps these rules, so a pruned graph passes the check whenever the graph did. -/

namespace CallChart

namespace Graph

/-- All ids on a side of the links are nodes. -/
def Resolved (graph : Graph) (sets : OrderedMap String (OrderedSet String)) : Prop :=
  ∀ entry ∈ sets.entries, graph.contains entry.1 ∧ ∀ id ∈ entry.2, graph.contains id

structure Valid (graph : Graph) : Prop where
  forward : ∀ node ∈ graph.nodes, node.firstLine ≤ node.lastLine
  start : ∃ node, graph.nodes.filter (·.kind = .start) = [node] ∧ graph.callers node.id = []
  callees : graph.Resolved graph.calleeSets
  callers : graph.Resolved graph.callerSets

variable {graph : Graph}

private theorem lineFaults_eq_nil {node : Node} : lineFaults node = [] ↔ node.firstLine ≤ node.lastLine := by
  unfold lineFaults
  split
  · next reversed => simpa using reversed
  · next ordered => simpa using ordered

private theorem nodeFaults_some (first : String) (nodes : List Node) :
    graph.nodeFaults (some first) nodes = [] ↔
      (∀ node ∈ nodes, node.firstLine ≤ node.lastLine) ∧ nodes.filter (·.kind = .start) = [] := by
  induction nodes with
  | nil => simp [nodeFaults]
  | cons node rest ih =>
    have kept : ∀ other : Option String, (some first <|> other) = some first := fun _ => rfl
    simp only [nodeFaults, kept, List.append_eq_nil_iff, lineFaults_eq_nil, ih, List.forall_mem_cons]
    cases kind : node.kind <;> simp [startFaults, kind, and_assoc]

private theorem nodeFaults_none (nodes : List Node) :
    graph.nodeFaults none nodes = [] ↔
      (∀ node ∈ nodes, node.firstLine ≤ node.lastLine) ∧
        ∃ node, nodes.filter (·.kind = .start) = [node] ∧ graph.callers node.id = [] := by
  induction nodes with
  | nil => simp [nodeFaults]
  | cons node rest ih =>
    have taken : ∀ other : Option String, (none <|> other) = other := fun _ => rfl
    simp only [nodeFaults, taken, List.append_eq_nil_iff, lineFaults_eq_nil, List.forall_mem_cons]
    by_cases kind : node.kind = .start
    · simp only [startFaults, kind, if_true, nodeFaults_some]
      rw [List.filter_cons_of_pos (by simpa using kind)]
      constructor
      · rintro ⟨⟨ordered, uncalled⟩, later, single⟩
        refine ⟨⟨ordered, later⟩, node, by rw [single], ?_⟩
        by_contra called
        simp [called] at uncalled
      · rintro ⟨⟨ordered, later⟩, other, single, uncalled⟩
        obtain ⟨rfl, none⟩ := List.cons_eq_cons.1 single
        exact ⟨⟨ordered, by simp [uncalled]⟩, later, none⟩
    · have quiet : graph.startFaults none node = [] := by
        unfold startFaults
        split <;> simp_all
      rw [if_neg kind, quiet, ih, List.filter_cons_of_neg (by simpa using kind)]
      tauto

private theorem linkFaults_eq_nil {sets : OrderedMap String (OrderedSet String)}
    {unknownId unknownMember : String → GraphError} :
    graph.linkFaults sets unknownId unknownMember = [] ↔ graph.Resolved sets := by
  simp only [linkFaults, List.flatMap_eq_nil_iff, List.append_eq_nil_iff, List.map_eq_nil_iff, List.filter_eq_nil_iff,
    Resolved]
  refine forall_congr' fun entry => forall_congr' fun _ => and_congr ?_ ?_
  · split <;> simp_all
  · simp

theorem check_eq_ok_iff : graph.check = .ok () ↔ graph.Valid := by
  have faultless : graph.check = .ok () ↔ graph.faults = [] := by
    unfold check
    split <;> simp_all
  rw [faultless, faults, List.append_eq_nil_iff, List.append_eq_nil_iff, nodeFaults_none, linkFaults_eq_nil,
    linkFaults_eq_nil]
  constructor
  · rintro ⟨⟨⟨forward, start⟩, callees⟩, callers⟩
    exact ⟨forward, start, callees, callers⟩
  · rintro ⟨forward, start, callees, callers⟩
    exact ⟨⟨⟨forward, start⟩, callees⟩, callers⟩

theorem Consistent.start_not_mem_doomed (consistent : graph.Consistent) {start : String}
    (kind : graph.kind? start = some .start) : start ∉ graph.doomed := by
  intro deleted
  obtain ⟨node, dead, rfl⟩ := List.mem_map.1 deleted
  obtain ⟨member, dead⟩ := List.mem_filter.1 dead
  obtain ⟨other, found, kind⟩ := kind?_eq_some_iff.1 kind
  cases (node?_of_mem consistent.distinct member).symm.trans found
  simp [Graph.dead, kind] at dead

private theorem mem_entries_of_mem {sets : OrderedMap String (OrderedSet String)} {id member : String}
    (inside : member ∈ ((sets.find? id).getD ∅).toList) : ∃ set, (id, set) ∈ sets.entries ∧ member ∈ set := by
  cases found : sets.find? id with
  | none =>
    rw [found] at inside
    cases inside
  | some set =>
    rw [found] at inside
    obtain ⟨entry, located, rfl⟩ := Option.map_eq_some_iff.1 found
    have named : entry.1 = id := by simpa using List.find?_some located
    exact ⟨entry.2, named ▸ List.mem_of_find?_eq_some located, inside⟩

namespace Valid

theorem contains_of_mem_callees (valid : graph.Valid) {caller callee : String}
    (called : callee ∈ graph.callees caller) : graph.contains caller ∧ graph.contains callee := by
  obtain ⟨set, entered, member⟩ := mem_entries_of_mem called
  exact ⟨(valid.callees _ entered).1, (valid.callees _ entered).2 _ member⟩

theorem callees_eq_nil (valid : graph.Valid) {id : String} (unknown : id ∉ graph.ids) : graph.callees id = [] := by
  cases listed : graph.callees id with
  | nil => rfl
  | cons callee rest =>
    have called : callee ∈ graph.callees id := by simp [listed]
    exact absurd (contains_iff_mem_ids.1 (valid.contains_of_mem_callees called).1) unknown

/-- The walk begins at the only start node, which nothing calls. -/
theorem entry (valid : graph.Valid) :
    ∃ entry, graph.entry? = some entry ∧ graph.callers entry.id = [] ∧
      ∀ node ∈ graph.nodes, node.kind = .start → node = entry := by
  obtain ⟨start, single, uncalled⟩ := valid.start
  have only : ∀ node ∈ graph.nodes, node.kind = .start → node = start := by
    intro node member kind
    have kept : node ∈ graph.nodes.filter (·.kind = .start) := List.mem_filter.2 ⟨member, by simpa using kind⟩
    simpa [single] using kept
  have listed : start ∈ graph.nodes.filter (·.kind = .start) := by simp [single]
  obtain ⟨member, kind⟩ := List.mem_filter.1 listed
  have present : graph.entry?.isSome := List.find?_isSome.2 ⟨start, member, kind⟩
  obtain ⟨entry, first⟩ := Option.isSome_iff_exists.1 present
  have same := only entry (List.mem_of_find?_eq_some first) (by simpa using List.find?_some first)
  exact ⟨start, same ▸ first, uncalled, only⟩

theorem entry?_of_kind? (valid : graph.Valid) {id : String} (kind : graph.kind? id = some .start) :
    ∃ entry, graph.entry? = some entry ∧ entry.id = id := by
  obtain ⟨node, found, starts⟩ := kind?_eq_some_iff.1 kind
  obtain ⟨member, named⟩ := node?_some found
  obtain ⟨entry, first, _, only⟩ := valid.entry
  exact ⟨entry, first, only node member starts ▸ named⟩

private theorem resolved_without {sets : OrderedMap String (OrderedSet String)} (resolved : graph.Resolved sets)
    (gone : List String) :
    (graph.without gone).Resolved ((sets.filterKeys (· ∉ gone)).mapValues (·.filter (· ∉ gone))) := by
  intro entry entered
  obtain ⟨old, kept, rfl⟩ := List.mem_map.1 entered
  obtain ⟨entered, stays⟩ := List.mem_filter.1 kept
  obtain ⟨known, members⟩ := resolved old entered
  refine ⟨contains_without.2 ⟨known, by simpa using stays⟩, ?_⟩
  intro id member
  obtain ⟨member, stays⟩ := OrderedSet.mem_filter.1 member
  exact contains_without.2 ⟨members id member, by simpa using stays⟩

theorem without (valid : graph.Valid) {gone : List String}
    (spared : ∀ node ∈ graph.nodes, node.kind = .start → node.id ∉ gone) : (graph.without gone).Valid := by
  refine ⟨?_, ?_, resolved_without valid.callees gone, resolved_without valid.callers gone⟩
  · intro node member
    exact valid.forward node (List.mem_filter.1 member).1
  · obtain ⟨start, single, uncalled⟩ := valid.start
    have listed : start ∈ graph.nodes.filter (·.kind = .start) := by simp [single]
    obtain ⟨member, kind⟩ := List.mem_filter.1 listed
    refine ⟨start, ?_, ?_⟩
    · have stays := spared start member (by simpa using kind)
      simp only [Graph.without]
      rw [List.filter_comm, single]
      simp [stays]
    · rw [callers_without, uncalled]
      split <;> rfl

theorem pass (valid : graph.Valid) (consistent : graph.Consistent) : (graph.without graph.doomed).Valid := by
  apply valid.without
  intro node member starts
  exact consistent.start_not_mem_doomed
    (kind?_eq_some_iff.2 ⟨node, node?_of_mem consistent.distinct member, starts⟩)

theorem prune (valid : graph.Valid) (consistent : graph.Consistent) : graph.prune.Valid := by
  fun_induction Graph.prune graph with
  | case1 => exact valid
  | case2 graph _ ih => exact ih (valid.pass consistent) (consistent.without _)

end Valid

end Graph

end CallChart
