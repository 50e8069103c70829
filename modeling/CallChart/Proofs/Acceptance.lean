import CallChart.Proofs.Checking
import CallChart.Proofs.Documents

/-! Which documents describe a graph, and which graph it is. Adding the nodes of a document fails only for want of
distinct ids, and linking their callees has a closed form on either side of the links; so the checks that
follow can be read as rules of the document. -/

namespace CallChart

namespace Graph

variable {graph : Graph}

private theorem toList_withMember (sets : OrderedMap String (OrderedSet String)) (id member other : String) :
    (((withMember sets id member).find? other).getD ∅).toList =
      if other = id ∧ member ∉ ((sets.find? other).getD ∅).toList then ((sets.find? other).getD ∅).toList ++ [member]
      else ((sets.find? other).getD ∅).toList := by
  rw [getD_find?_withMember]
  by_cases same : other = id
  · subst same
    rw [if_pos rfl, OrderedSet.toList_insert]
    by_cases present : member ∈ (sets.find? other).getD ∅
    · rw [if_pos present, if_neg (fun both => both.2 present)]
    · rw [if_neg present, if_pos ⟨rfl, present⟩]
  · rw [if_neg (Ne.symm same), if_neg (fun both => same both.1)]

theorem callees_link (graph : Graph) (caller callee id : String) :
    (graph.link caller callee).callees id =
      if id = caller ∧ callee ∉ graph.callees id then graph.callees id ++ [callee] else graph.callees id :=
  toList_withMember graph.calleeSets caller callee id

theorem callers_link (graph : Graph) (caller callee id : String) :
    (graph.link caller callee).callers id =
      if id = callee ∧ caller ∉ graph.callers id then graph.callers id ++ [caller] else graph.callers id :=
  toList_withMember graph.callerSets callee caller id

def linkEach (graph : Graph) (caller : String) (callees : List String) : Graph :=
  callees.foldl (fun graph callee => graph.link caller callee) graph

theorem linkEach_cons (graph : Graph) (caller callee : String) (rest : List String) :
    graph.linkEach caller (callee :: rest) = (graph.link caller callee).linkEach caller rest := rfl

@[simp] theorem nodes_linkEach (graph : Graph) (caller : String) (callees : List String) :
    (graph.linkEach caller callees).nodes = graph.nodes := by
  induction callees generalizing graph with
  | nil => rfl
  | cons callee rest ih => rw [linkEach_cons, ih, nodes_link]

theorem callees_linkEach (graph : Graph) (caller : String) (callees : List String) (id : String) :
    (graph.linkEach caller callees).callees id =
      if id = caller then graph.callees id ++ (callees.filter (· ∉ graph.callees id)).eraseDups
      else graph.callees id := by
  induction callees generalizing graph with
  | nil => simp [linkEach]
  | cons callee rest ih =>
    rw [linkEach_cons, ih, callees_link]
    by_cases same : id = caller
    · rw [if_pos same, if_pos same]
      by_cases present : callee ∈ graph.callees id
      · rw [if_neg (fun both => both.2 present), List.filter_cons_of_neg (by simpa using present)]
      · -- What is left out from here on is what was there before and the callee just linked.
        have fewer : rest.filter (· ∉ graph.callees id ++ [callee]) =
            (rest.filter (· ∉ graph.callees id)).filter (fun other => !other == callee) := by
          rw [List.filter_filter]
          apply List.filter_congr
          intro other _
          by_cases known : other = callee <;> simp [known]
        rw [if_pos ⟨same, present⟩, List.filter_cons_of_pos (by simpa using present), List.eraseDups_cons, fewer,
          List.append_assoc]
        rfl
    · rw [if_neg same, if_neg same, if_neg (fun both => same both.1)]

theorem callers_linkEach (graph : Graph) (caller : String) (callees : List String) (id : String) :
    (graph.linkEach caller callees).callers id =
      if id ∈ callees ∧ caller ∉ graph.callers id then graph.callers id ++ [caller] else graph.callers id := by
  induction callees generalizing graph with
  | nil => simp [linkEach]
  | cons callee rest ih =>
    rw [linkEach_cons, ih, callers_link]
    by_cases present : caller ∈ graph.callers id
    · simp [present]
    · by_cases same : id = callee
      · have linked : caller ∈ if id = callee ∧ caller ∉ graph.callers id then graph.callers id ++ [caller]
            else graph.callers id := by
          rw [if_pos ⟨same, present⟩]
          simp
        rw [if_neg (fun both => both.2 linked), if_pos ⟨same, present⟩, if_pos ⟨by simp [same], present⟩]
      · simp [same, present]

/-- The ids with an entry are the nodes, on either side of the links and in their order. -/
structure Indexed (graph : Graph) : Prop where
  callers : graph.callerSets.keys = graph.ids
  callees : graph.calleeSets.keys = graph.ids

theorem resolved_of_keys {sets : OrderedMap String (OrderedSet String)} (keys : sets.keys = graph.ids)
    (members : ∀ id ∈ graph.ids, ∀ member ∈ ((sets.find? id).getD ∅).toList, graph.contains member) :
    graph.Resolved sets := by
  intro entry listed
  have known : entry.1 ∈ graph.ids := keys ▸ List.mem_map_of_mem listed
  refine ⟨contains_iff_mem_ids.2 known, ?_⟩
  intro id member
  apply members entry.1 known
  rw [OrderedMap.find?_of_mem listed]
  exact member

theorem Indexed.add {node : Node} {next : Graph} (indexed : graph.Indexed) (added : graph.add node = .ok next) :
    next.Indexed := by
  obtain ⟨fresh, rfl⟩ := add_eq_ok_iff.1 added
  simp only [ids] at fresh
  constructor <;>
    simp only [withEntry, OrderedMap.keys_insert, indexed.callers, indexed.callees, ids, fresh, if_false,
      List.map_append, List.map_cons, List.map_nil]

theorem Indexed.link {caller callee : String} (indexed : graph.Indexed) (known : caller ∈ graph.ids)
    (called : callee ∈ graph.ids) : (graph.link caller callee).Indexed := by
  constructor
  · exact (OrderedMap.keys_insert ..).trans (by rw [indexed.callers, if_pos called]; rfl)
  · exact (OrderedMap.keys_insert ..).trans (by rw [indexed.callees, if_pos known]; rfl)

end Graph

namespace GraphDoc

variable {graph next : Graph} {docs : List NodeDoc}

theorem linkCallees_cons (graph : Graph) (item : NodeDoc) (rest : List NodeDoc) :
    linkCallees graph (item :: rest) = linkCallees (graph.linkEach item.node.id item.callees) rest := rfl

theorem addNodes_cons (graph : Graph) (item : NodeDoc) (rest : List NodeDoc) :
    addNodes graph (item :: rest) = (graph.add item.node).bind (addNodes · rest) := rfl

@[simp] theorem nodes_linkCallees (graph : Graph) (docs : List NodeDoc) :
    (linkCallees graph docs).nodes = graph.nodes := by
  induction docs generalizing graph with
  | nil => rfl
  | cons item rest ih => rw [linkCallees_cons, ih, Graph.nodes_linkEach]

theorem callees_linkCallees_other {id : String} (other : id ∉ docs.map (·.node.id)) :
    (linkCallees graph docs).callees id = graph.callees id := by
  induction docs generalizing graph with
  | nil => rfl
  | cons item rest ih =>
    rw [List.map_cons, List.mem_cons, not_or] at other
    rw [linkCallees_cons, ih other.2, Graph.callees_linkEach, if_neg other.1]

/-- A node of a document calls what it declares, each id once. -/
theorem callees_linkCallees {item : NodeDoc} (distinct : (docs.map (·.node.id)).Nodup) (listed : item ∈ docs)
    (bare : graph.callees item.node.id = []) :
    (linkCallees graph docs).callees item.node.id = item.callees.eraseDups := by
  induction docs generalizing graph with
  | nil => cases listed
  | cons first rest ih =>
    obtain ⟨absent, distinct⟩ := List.nodup_cons.1 distinct
    rw [linkCallees_cons]
    rcases List.mem_cons.1 listed with rfl | later
    · rw [callees_linkCallees_other absent, Graph.callees_linkEach, if_pos rfl, bare]
      simp
    · have different : item.node.id ≠ first.node.id := by
        intro same
        exact absent (List.mem_map.2 ⟨item, later, same⟩)
      apply ih distinct later
      rw [Graph.callees_linkEach, if_neg different, bare]

/-- An id is called by the nodes that declare it, in the order of the document. -/
theorem callers_linkCallees {id : String} (distinct : (docs.map (·.node.id)).Nodup)
    (fresh : ∀ item ∈ docs, item.node.id ∉ graph.callers id) :
    (linkCallees graph docs).callers id = graph.callers id ++ (docs.filter (id ∈ ·.callees)).map (·.node.id) := by
  induction docs generalizing graph with
  | nil => simp [linkCallees]
  | cons first rest ih =>
    obtain ⟨absent, distinct⟩ := List.nodup_cons.1 distinct
    have unlinked : first.node.id ∉ graph.callers id := fresh first List.mem_cons_self
    have linked := Graph.callers_linkEach graph first.node.id first.callees id
    rw [linkCallees_cons, ih distinct]
    · by_cases called : id ∈ first.callees
      · rw [linked, if_pos ⟨called, unlinked⟩, List.filter_cons_of_pos (by simpa using called)]
        simp
      · rw [linked, if_neg (fun both => called both.1), List.filter_cons_of_neg (by simpa using called)]
    · intro item later
      have old : item.node.id ∉ graph.callers id := fresh item (List.mem_cons_of_mem _ later)
      have different : item.node.id ≠ first.node.id := by
        intro same
        exact absent (List.mem_map.2 ⟨item, later, same⟩)
      rw [linked]
      split <;> simp [old, different]

theorem indexed_linkEach {caller : String} {callees : List String} (indexed : graph.Indexed)
    (known : caller ∈ graph.ids) (called : ∀ callee ∈ callees, callee ∈ graph.ids) :
    (graph.linkEach caller callees).Indexed := by
  induction callees generalizing graph with
  | nil => exact indexed
  | cons callee rest ih =>
    obtain ⟨first, others⟩ := List.forall_mem_cons.1 called
    exact ih (indexed.link known first) known others

theorem indexed_linkCallees (indexed : graph.Indexed)
    (known : ∀ item ∈ docs, item.node.id ∈ graph.ids ∧ ∀ callee ∈ item.callees, callee ∈ graph.ids) :
    (linkCallees graph docs).Indexed := by
  induction docs generalizing graph with
  | nil => exact indexed
  | cons item rest ih =>
    obtain ⟨first, others⟩ := List.forall_mem_cons.1 known
    have same : (graph.linkEach item.node.id item.callees).ids = graph.ids := by simp [Graph.ids]
    apply ih (indexed_linkEach indexed first.1 first.2)
    rw [same]
    exact others

structure Bare (graph : Graph) : Prop where
  indexed : graph.Indexed
  callers : ∀ id, graph.callers id = []
  callees : ∀ id, graph.callees id = []

theorem bare_empty : Bare {} := ⟨⟨rfl, rfl⟩, fun _ => rfl, fun _ => rfl⟩

theorem Bare.add {node : Node} (bare : Bare graph) (added : graph.add node = .ok next) : Bare next := by
  refine ⟨bare.indexed.add added, ?_, ?_⟩
  · intro id
    obtain ⟨_, rfl⟩ := Graph.add_eq_ok_iff.1 added
    rw [← bare.callers id, Graph.callers, Graph.getD_find?_withEntry, Graph.callers]
  · intro id
    obtain ⟨_, rfl⟩ := Graph.add_eq_ok_iff.1 added
    rw [← bare.callees id, Graph.callees, Graph.getD_find?_withEntry, Graph.callees]

theorem bare_addNodes (bare : Bare graph) (added : addNodes graph docs = .ok next) :
    Bare next ∧ next.nodes = graph.nodes ++ docs.map NodeDoc.node := by
  induction docs generalizing graph with
  | nil =>
    cases added
    exact ⟨bare, by simp⟩
  | cons item rest ih =>
    rw [addNodes_cons] at added
    cases step : graph.add item.node with
    | error fault =>
      rw [step] at added
      cases added
    | ok middle =>
      rw [step] at added
      obtain ⟨kept, nodes⟩ := ih (bare.add step) added
      obtain ⟨_, rfl⟩ := Graph.add_eq_ok_iff.1 step
      exact ⟨kept, by rw [nodes]; simp⟩

theorem exists_addNodes (distinct : (graph.ids ++ docs.map (·.node.id)).Nodup) :
    ∃ next, addNodes graph docs = .ok next := by
  induction docs generalizing graph with
  | nil => exact ⟨graph, rfl⟩
  | cons item rest ih =>
    have fresh : item.node.id ∉ graph.ids := by
      intro taken
      exact List.disjoint_of_nodup_append distinct taken (by simp)
    have step := Graph.add_eq_ok_iff.2 ⟨fresh, rfl⟩
    rw [addNodes_cons, step]
    apply ih
    simpa [Graph.ids] using distinct

theorem callerFaults_eq_nil {item : NodeDoc} :
    callerFaults graph item = [] ↔
      (∀ caller ∈ item.callers, graph.contains caller ∧ item.node.id ∈ graph.callees caller) ∧
        ∀ caller ∈ graph.callers item.node.id, caller ∈ item.callers := by
  simp only [callerFaults, List.append_eq_nil_iff, List.flatMap_eq_nil_iff, List.map_eq_nil_iff, List.filter_eq_nil_iff]
  refine and_congr (forall_congr' fun caller => forall_congr' fun _ => ?_) ?_
  · by_cases known : graph.contains caller <;> simp [known]
  · simp

/-- The graph that the declared callees of a document describe. -/
structure Describes (doc : GraphDoc) (graph : Graph) : Prop where
  nodes : graph.nodes = doc.nodes.map NodeDoc.node
  callees : ∀ item ∈ doc.nodes, graph.callees item.node.id = item.callees.eraseDups
  callers : ∀ id, graph.callers id = (doc.nodes.filter (id ∈ ·.callees)).map (·.node.id)

def ids (doc : GraphDoc) : List String := doc.nodes.map (·.node.id)

/-- The rules of a document: ids are distinct, text ranges run forward, one node is the start and none declares it as a
callee, declared ids are nodes, and callers and callees are declared alike. -/
structure Wellformed (doc : GraphDoc) : Prop where
  distinct : doc.ids.Nodup
  forward : ∀ item ∈ doc.nodes, item.node.firstLine ≤ item.node.lastLine
  start : ∃ start, doc.nodes.filter (·.node.kind = .start) = [start] ∧
    ∀ item ∈ doc.nodes, start.node.id ∉ item.callees
  resolved : ∀ item ∈ doc.nodes, ∀ id, id ∈ item.callers ∨ id ∈ item.callees → id ∈ doc.ids
  agree : ∀ caller ∈ doc.nodes, ∀ callee ∈ doc.nodes,
    callee.node.id ∈ caller.callees ↔ caller.node.id ∈ callee.callers

variable {doc : GraphDoc} {base : Graph}

theorem describes_linkCallees (added : addNodes {} doc.nodes = .ok base) :
    doc.Describes (linkCallees base doc.nodes) := by
  obtain ⟨bare, nodes⟩ := bare_addNodes bare_empty added
  have distinct : (doc.nodes.map (·.node.id)).Nodup := by
    have built := (built_addNodes .empty added).consistent.distinct
    rw [Graph.ids, nodes] at built
    simpa [Function.comp_def] using built
  refine ⟨?_, ?_, ?_⟩
  · rw [nodes_linkCallees, nodes]
    rfl
  · intro item listed
    exact callees_linkCallees distinct listed (bare.callees item.node.id)
  · intro id
    rw [callers_linkCallees distinct, bare.callers, List.nil_append]
    intro item _
    simp [bare.callers]

namespace Describes

theorem ids (describes : doc.Describes graph) : graph.ids = doc.ids := by
  rw [Graph.ids, describes.nodes, List.map_map]
  rfl

theorem mem_callers_iff (describes : doc.Describes graph) {caller id : String} :
    caller ∈ graph.callers id ↔ ∃ item ∈ doc.nodes, id ∈ item.callees ∧ item.node.id = caller := by
  simp [describes.callers, and_assoc]

theorem mem_callees_iff (describes : doc.Describes graph) {item : NodeDoc} (listed : item ∈ doc.nodes) {id : String} :
    id ∈ graph.callees item.node.id ↔ id ∈ item.callees := by
  rw [describes.callees item listed, List.mem_eraseDups]

theorem start_iff (describes : doc.Describes graph) :
    (∃ node, graph.nodes.filter (·.kind = .start) = [node] ∧ graph.callers node.id = []) ↔
      ∃ start, doc.nodes.filter (·.node.kind = .start) = [start] ∧ ∀ item ∈ doc.nodes, start.node.id ∉ item.callees := by
  have uncalled : ∀ id, graph.callers id = [] ↔ ∀ item ∈ doc.nodes, id ∉ item.callees := by
    intro id
    simp [describes.callers]
  have starts : graph.nodes.filter (·.kind = .start) =
      (doc.nodes.filter (·.node.kind = .start)).map NodeDoc.node := by
    rw [describes.nodes, List.filter_map]
    rfl
  simp only [starts, List.map_eq_singleton_iff, uncalled]
  constructor
  · rintro ⟨node, ⟨start, single, rfl⟩, free⟩
    exact ⟨start, single, free⟩
  · rintro ⟨start, single, free⟩
    exact ⟨start.node, ⟨start, single, rfl⟩, free⟩

theorem wellformed (describes : doc.Describes graph) (distinct : graph.ids.Nodup) (valid : graph.Valid)
    (declared : ∀ item ∈ doc.nodes, callerFaults graph item = []) : doc.Wellformed := by
  refine ⟨describes.ids ▸ distinct, ?_, describes.start_iff.1 valid.start, ?_, ?_⟩
  · intro item listed
    apply valid.forward
    rw [describes.nodes]
    exact List.mem_map_of_mem listed
  · intro item listed id side
    rw [← describes.ids, ← Graph.contains_iff_mem_ids]
    rcases side with caller | callee
    · exact ((callerFaults_eq_nil.1 (declared item listed)).1 id caller).1
    · exact (valid.contains_of_mem_callees ((describes.mem_callees_iff listed).2 callee)).2
  · intro caller calling callee called
    obtain ⟨justified, complete⟩ := callerFaults_eq_nil.1 (declared callee called)
    constructor
    · intro link
      exact complete _ (describes.mem_callers_iff.2 ⟨caller, calling, link, rfl⟩)
    · intro link
      exact (describes.mem_callees_iff calling).1 (justified _ link).2

theorem callerFaults_eq_nil_of_wellformed (describes : doc.Describes graph) (wellformed : doc.Wellformed)
    {item : NodeDoc} (listed : item ∈ doc.nodes) : callerFaults graph item = [] := by
  refine callerFaults_eq_nil.2 ⟨?_, ?_⟩
  · intro caller declared
    have known := wellformed.resolved item listed caller (.inl declared)
    obtain ⟨source, calling, rfl⟩ := List.mem_map.1 known
    refine ⟨?_, ?_⟩
    · rw [Graph.contains_iff_mem_ids, describes.ids]
      exact known
    · rw [describes.mem_callees_iff calling]
      exact (wellformed.agree source calling item listed).2 declared
  · intro caller calls
    obtain ⟨source, calling, link, rfl⟩ := describes.mem_callers_iff.1 calls
    exact (wellformed.agree source calling item listed).1 link

theorem valid (describes : doc.Describes graph) (indexed : graph.Indexed) (wellformed : doc.Wellformed) :
    graph.Valid := by
  have known : ∀ item ∈ doc.nodes, graph.contains item.node.id := by
    intro item listed
    rw [Graph.contains_iff_mem_ids, describes.ids]
    exact List.mem_map_of_mem listed
  refine ⟨?_, describes.start_iff.2 wellformed.start, ?_, ?_⟩
  · intro node member
    rw [describes.nodes] at member
    obtain ⟨item, listed, rfl⟩ := List.mem_map.1 member
    exact wellformed.forward item listed
  · apply Graph.resolved_of_keys indexed.callees
    intro caller node callee link
    rw [describes.ids] at node
    obtain ⟨source, calling, rfl⟩ := List.mem_map.1 node
    rw [Graph.contains_iff_mem_ids, describes.ids]
    exact wellformed.resolved source calling callee (.inr ((describes.mem_callees_iff calling).1 link))
  · apply Graph.resolved_of_keys indexed.callers
    intro callee _ caller link
    obtain ⟨source, calling, _, rfl⟩ := describes.mem_callers_iff.1 link
    exact known source calling

end Describes

/-- A document is read in four steps, and what fails is one of them. -/
theorem toGraph_eq_ok_iff :
    doc.toGraph = .ok graph ↔ ∃ base, addNodes {} doc.nodes = .ok base ∧ linkCallees base doc.nodes = graph ∧
      graph.Valid ∧ ∀ item ∈ doc.nodes, callerFaults graph item = [] := by
  unfold toGraph
  cases added : addNodes {} doc.nodes with
  | error fault => simp [bind, Except.bind]
  | ok base =>
    simp only [bind, Except.bind, Except.ok.injEq, exists_eq_left']
    cases checked : (linkCallees base doc.nodes).check with
    | error fault =>
      have invalid : ¬ (linkCallees base doc.nodes).Valid := by
        rw [← Graph.check_eq_ok_iff, checked]
        nofun
      simp only [reduceCtorEq, false_iff]
      rintro ⟨rfl, valid, _⟩
      exact invalid valid
    | ok =>
      have valid := Graph.check_eq_ok_iff.1 checked
      rw [← List.flatMap_eq_nil_iff]
      cases faults : doc.nodes.flatMap (callerFaults (linkCallees base doc.nodes)) with
      | nil =>
        constructor
        · intro read
          cases read
          exact ⟨rfl, valid, faults⟩
        · rintro ⟨rfl, _⟩
          rfl
      | cons first rest =>
        constructor
        · nofun
        · rintro ⟨rfl, _, none⟩
          cases faults.symm.trans none

theorem describes_toGraph (read : doc.toGraph = .ok graph) : doc.Describes graph := by
  obtain ⟨base, added, rfl, _⟩ := toGraph_eq_ok_iff.1 read
  exact describes_linkCallees added

theorem wellformed_toGraph (read : doc.toGraph = .ok graph) : doc.Wellformed := by
  obtain ⟨_, _, _, valid, declared⟩ := toGraph_eq_ok_iff.1 read
  exact (describes_toGraph read).wellformed (built_toGraph read).1.consistent.distinct valid declared

theorem indexed_of_wellformed (wellformed : doc.Wellformed) (added : addNodes {} doc.nodes = .ok base) :
    (linkCallees base doc.nodes).Indexed := by
  obtain ⟨bare, _⟩ := bare_addNodes bare_empty added
  have same : base.ids = doc.ids := by
    rw [← (describes_linkCallees added).ids, Graph.ids, Graph.ids, nodes_linkCallees]
  apply indexed_linkCallees bare.indexed
  intro item listed
  rw [same]
  refine ⟨List.mem_map_of_mem listed, ?_⟩
  intro callee declared
  exact wellformed.resolved item listed callee (.inr declared)

theorem indexed_toGraph (read : doc.toGraph = .ok graph) : graph.Indexed := by
  obtain ⟨base, added, rfl, _⟩ := toGraph_eq_ok_iff.1 read
  exact indexed_of_wellformed (wellformed_toGraph read) added

theorem exists_toGraph (wellformed : doc.Wellformed) : ∃ graph, doc.toGraph = .ok graph := by
  obtain ⟨base, added⟩ : ∃ base, addNodes {} doc.nodes = .ok base := exists_addNodes wellformed.distinct
  have describes := describes_linkCallees added
  have valid := describes.valid (indexed_of_wellformed wellformed added) wellformed
  refine ⟨_, toGraph_eq_ok_iff.2 ⟨base, added, rfl, valid, ?_⟩⟩
  intro item listed
  exact describes.callerFaults_eq_nil_of_wellformed wellformed listed

/-- A document is accepted exactly if it is well formed. The graph has its nodes in their order, and each calls what the
document declares, without the repetitions. -/
theorem toGraph_accepts (doc : GraphDoc) :
    ((∃ graph, doc.toGraph = .ok graph) ↔ doc.Wellformed) ∧
      ∀ graph, doc.toGraph = .ok graph →
        graph.nodes = doc.nodes.map NodeDoc.node ∧
          ∀ item ∈ doc.nodes, graph.callees item.node.id = item.callees.eraseDups := by
  refine ⟨⟨?_, exists_toGraph⟩, ?_⟩
  · intro accepted
    obtain ⟨graph, read⟩ := accepted
    exact wellformed_toGraph read
  · intro graph read
    have describes := describes_toGraph read
    exact ⟨describes.nodes, describes.callees⟩

def repetitive : GraphDoc where
  nodes := [
    .brief "main" .start [] ["a", "b", "a"],
    .brief "a" .normal ["b", "main", "a", "b"] ["b", "a", "b"],
    .brief "b" .normal ["a", "main"] ["a", "a"]]

theorem repetitive_accepted :
    repetitive.Wellformed ∧ ∃ graph, repetitive.toGraph = .ok graph ∧ graph.callees "a" = ["b", "a"] := by
  obtain ⟨accepts, describes⟩ := toGraph_accepts repetitive
  have accepted : ∃ graph, repetitive.toGraph = .ok graph := ⟨_, rfl⟩
  refine ⟨accepts.1 accepted, ?_⟩
  obtain ⟨graph, read⟩ := accepted
  exact ⟨graph, read, (describes graph read).2 (.brief "a" .normal ["b", "main", "a", "b"] ["b", "a", "b"]) (by decide)⟩

end GraphDoc

end CallChart
