import CallChart.Proofs.Acceptance
import CallChart.Proofs.Reading
import CallChart.Render

/-! A graph that is written and read again is the same graph. The text of a document is read as this document, and the
document of a checked graph is well formed, so it describes a graph; nodes and callees come back in their order, and
callers in the order of the nodes. -/

namespace CallChart

open Json (Reads)

theorem Json.Reads.run {α : Type} {reader : Json.Reader α} {json : Json} {value : α} (reads : Reads reader json value) :
    reader.run json.compact = .ok value := by
  have taken := reads.takes [] .finish
  rw [List.append_nil] at taken
  unfold Json.Reader.run
  change (reader json.compact.toList >>= _) = _
  rw [taken]
  rfl

theorem Kind.pick_name (kind : Kind) :
    Json.Decoder.pick (Kind.all.map fun kind => (kind.name, kind)) kind.name = .ok kind := by
  cases kind <;> rfl

theorem Node.same_self (node : Node) : node.same node = true := by
  have invocations : node.invocations.sameEntries (· = ·) node.invocations = true := by
    simp only [OrderedMap.sameEntries, beq_self_eq_true, Bool.true_and, List.all_eq_true]
    intro entry listed
    simp [OrderedMap.find?_of_mem listed]
  simp [Node.same, invocations]

namespace NodeDoc

open Json.Decoder

private theorem strings_reads (texts : List String) : Reads (list string).read (.strings texts) texts :=
  list_reads fun text _ => string_reads text

def drafted (doc : NodeDoc) : Draft where
  id := doc.node.id
  label := doc.node.label
  kind := doc.node.kind
  firstLine := doc.node.firstLine
  lastLine := doc.node.lastLine
  callers := doc.callers
  callees := doc.callees

private theorem finish_drafted {doc : NodeDoc} (none : doc.node.invocations.entries = []) :
    finish doc.drafted = .ok doc := by
  obtain ⟨⟨id, label, kind, firstLine, lastLine, invocations⟩, callers, callees⟩ := doc
  have empty : invocations = ∅ := OrderedMap.ext none
  subst empty
  rfl

theorem decoder_reads (doc : NodeDoc) : Reads decoder.read doc.toJson doc := by
  let record : Record Draft NodeDoc := { name := "RawNodeDto", fields, draft := {}, finish }
  unfold toJson
  -- Invocations may be left out; what comes before them is read in the same way.
  generalize written : (if doc.node.invocations.entries = [] then [] else _) = others
  suffices invoked : ∃ last, Json.Reader.Changes record.readMember others doc.drafted last ∧ finish last = .ok doc by
    obtain ⟨last, later, complete⟩ := invoked
    refine Record.record_reads ?_ complete
    refine Record.changes_cons rfl rfl (map_reads (string_reads doc.node.id) _) ?_
    refine Record.changes_cons rfl rfl (map_reads (string_reads doc.node.label) _) ?_
    refine Record.changes_cons rfl rfl (map_reads (oneOf_reads doc.node.kind.pick_name) _) ?_
    refine Record.changes_cons rfl rfl (map_reads (natural_reads doc.node.firstLine) _) ?_
    refine Record.changes_cons rfl rfl (map_reads (natural_reads doc.node.lastLine) _) ?_
    refine Record.changes_cons rfl rfl (map_reads (strings_reads doc.callers) _) ?_
    refine Record.changes_cons rfl rfl (map_reads (strings_reads doc.callees) _) ?_
    exact later
  rw [← written]
  split
  · next none => exact ⟨doc.drafted, .nil _, finish_drafted none⟩
  · have invocations := table_reads fun entry (_ : entry ∈ doc.node.invocations.entries) => natural_reads entry.2
    exact ⟨_, Record.changes_cons rfl rfl (map_reads invocations _) (.nil _), rfl⟩

end NodeDoc

namespace GraphDoc

open Json.Decoder

theorem decoder_reads (doc : GraphDoc) : Reads decoder.read doc.toJson doc := by
  have nodes := list_reads fun item (_ : item ∈ doc.nodes) => item.decoder_reads
  exact Record.record_reads (Record.changes_cons rfl rfl (map_reads nodes _) (.nil _)) rfl

/-- In the graph of a document, the callers of an id are the nodes that call it, in their order. -/
theorem Describes.callers_eq {doc : GraphDoc} {graph : Graph} (describes : doc.Describes graph) (id : String) :
    graph.callers id = (graph.nodes.filter (fun node => id ∈ graph.callees node.id)).map Node.id := by
  rw [describes.callers, describes.nodes, List.filter_map, List.map_map]
  congr 1
  apply List.filter_congr
  intro item listed
  simp [describes.mem_callees_iff listed]

end GraphDoc

namespace Graph

variable {graph again : Graph}

theorem ofText_eq_ok_iff {text : String} :
    ofText text = .ok graph ↔ ∃ doc, GraphDoc.decoder.read.run text = .ok doc ∧ doc.toGraph = .ok graph := by
  unfold ofText
  cases read : GraphDoc.decoder.read.run text with
  | error fault => simp [failing, during, bind, Except.bind]
  | ok doc =>
    simp only [failing, during, bind, Except.bind, Except.ok.injEq, exists_eq_left']
    cases doc.toGraph <;> simp

theorem ofText_toText_eq_ok_iff : ofText graph.toText = .ok again ↔ graph.toDoc.toGraph = .ok again := by
  rw [ofText_eq_ok_iff, toText, (GraphDoc.decoder_reads _).run]
  simp

theorem ids_toDoc (graph : Graph) : graph.toDoc.ids = graph.ids := by
  simp [GraphDoc.ids, toDoc, ids, Function.comp_def]

/-- A checked graph is written as a well-formed document. -/
theorem Valid.wellformed_toDoc (valid : graph.Valid) (consistent : graph.Consistent) : graph.toDoc.Wellformed := by
  refine ⟨graph.ids_toDoc ▸ consistent.distinct, ?_, ?_, ?_, ?_⟩
  · intro item listed
    obtain ⟨node, member, rfl⟩ := List.mem_map.1 listed
    exact valid.forward node member
  · obtain ⟨start, single, uncalled⟩ := valid.start
    refine ⟨{ node := start, callers := graph.callers start.id, callees := graph.callees start.id }, ?_, ?_⟩
    · rw [toDoc, List.filter_map]
      change (graph.nodes.filter (·.kind = .start)).map _ = _
      rw [single]
      rfl
    · intro item listed called
      obtain ⟨node, _, rfl⟩ := List.mem_map.1 listed
      have caller := (consistent.agree _ _).1 called
      rw [uncalled] at caller
      cases caller
  · intro item listed id side
    obtain ⟨node, _, rfl⟩ := List.mem_map.1 listed
    rw [ids_toDoc, ← contains_iff_mem_ids]
    rcases side with caller | callee
    · exact (valid.contains_of_mem_callees ((consistent.agree _ _).2 caller)).1
    · exact (valid.contains_of_mem_callees callee).2
  · intro caller calling callee called
    obtain ⟨source, _, rfl⟩ := List.mem_map.1 calling
    obtain ⟨target, _, rfl⟩ := List.mem_map.1 called
    exact consistent.agree source.id target.id

private theorem perm_of_resolved {sets : OrderedMap String (OrderedSet String)} (distinct : graph.ids.Nodup)
    (resolved : graph.Resolved sets) (listed : ∀ id ∈ graph.ids, id ∈ sets.keys) : sets.keys.Perm graph.ids := by
  apply (List.perm_ext_iff_of_nodup sets.nodup distinct).2
  intro id
  constructor
  · intro key
    obtain ⟨entry, inside, rfl⟩ := List.mem_map.1 key
    exact contains_iff_mem_ids.1 (resolved entry inside).1
  · exact listed id

/-- The ids with an entry in a checked graph are its nodes. -/
theorem Valid.keys_perm (valid : graph.Valid) (built : graph.Built) :
    graph.callerSets.keys.Perm graph.ids ∧ graph.calleeSets.keys.Perm graph.ids := by
  have distinct := built.consistent.distinct
  constructor
  · exact perm_of_resolved distinct valid.callers fun _ known => (built.mem_keys known).1
  · exact perm_of_resolved distinct valid.callees fun _ known => (built.mem_keys known).2

theorem sameMembers_of_mem_iff {first second : OrderedSet String} (members : ∀ id, id ∈ first ↔ id ∈ second) :
    first.sameMembers second = true := by
  have perm := (List.perm_ext_iff_of_nodup first.nodup second.nodup).2 members
  simp [OrderedSet.sameMembers, OrderedSet.size, perm.length_eq, ← members]

theorem sameEntries_of_perm {first second : OrderedMap String (OrderedSet String)} (keys : first.keys.Perm second.keys)
    (members : ∀ id member, member ∈ (first.find? id).getD ∅ ↔ member ∈ (second.find? id).getD ∅) :
    first.sameEntries OrderedSet.sameMembers second = true := by
  have size : first.size = second.size := by simpa [OrderedMap.keys, OrderedMap.size] using keys.length_eq
  simp only [OrderedMap.sameEntries, size, beq_self_eq_true, Bool.true_and, List.all_eq_true]
  intro entry listed
  have key : entry.1 ∈ second.keys := keys.subset (List.mem_map_of_mem listed)
  cases found : second.find? entry.1 with
  | none => exact absurd key (OrderedMap.find?_eq_none_iff.1 found)
  | some set =>
    apply sameMembers_of_mem_iff
    intro id
    have agree := members entry.1 id
    rwa [OrderedMap.find?_of_mem listed, found] at agree

theorem same_of_perm (distinct : graph.ids.Nodup) (nodes : again.nodes = graph.nodes)
    (callerKeys : again.callerSets.keys.Perm graph.callerSets.keys)
    (calleeKeys : again.calleeSets.keys.Perm graph.calleeSets.keys)
    (callers : ∀ id caller, caller ∈ again.callers id ↔ caller ∈ graph.callers id)
    (callees : ∀ id callee, callee ∈ again.callees id ↔ callee ∈ graph.callees id) : again.same graph = true := by
  have alike : graph.nodes.all (fun node => (graph.node? node.id).any node.same) = true := by
    rw [List.all_eq_true]
    intro node member
    rw [node?_of_mem distinct member]
    exact Node.same_self node
  simp only [same, nodes, alike, beq_self_eq_true, Bool.true_and, sameEntries_of_perm callerKeys callers,
    sameEntries_of_perm calleeKeys callees]

private theorem eraseDups_of_nodup {members : List String} (distinct : members.Nodup) : members.eraseDups = members := by
  induction members with
  | nil => rfl
  | cons first rest ih =>
    obtain ⟨absent, distinct⟩ := List.nodup_cons.1 distinct
    have kept : rest.filter (fun other => !other == first) = rest := by
      apply List.filter_eq_self.2
      intro other member
      have different : other ≠ first := fun same => absent (same ▸ member)
      simp [different]
    rw [List.eraseDups_cons, kept, ih distinct]

/-- The document of a checked graph describes its nodes and callees in their order. -/
theorem Valid.reread (valid : graph.Valid) (read : graph.toDoc.toGraph = .ok again) :
    again.nodes = graph.nodes ∧ ∀ id, again.callees id = graph.callees id := by
  have describes := GraphDoc.describes_toGraph read
  have rechecked : again.Valid := check_eq_ok_iff.1 (GraphDoc.built_toGraph read).2
  refine ⟨?_, ?_⟩
  · rw [describes.nodes]
    simp [toDoc, Function.comp_def]
  · intro id
    by_cases known : id ∈ graph.ids
    · obtain ⟨node, member, rfl⟩ := List.mem_map.1 known
      rw [describes.callees _ (List.mem_map_of_mem member)]
      exact eraseDups_of_nodup (OrderedSet.nodup _)
    · have unknown : id ∉ again.ids := by rwa [describes.ids, ids_toDoc]
      rw [valid.callees_eq_nil known, rechecked.callees_eq_nil unknown]

/-- Nodes and callees make out a graph that was read. -/
theorem eq_of_read {first second : GraphDoc} (read : first.toGraph = .ok graph) (reread : second.toGraph = .ok again)
    (nodes : again.nodes = graph.nodes) (callees : ∀ id, again.callees id = graph.callees id) : again = graph := by
  have indexed := GraphDoc.indexed_toGraph read
  have reindexed := GraphDoc.indexed_toGraph reread
  have ids : again.ids = graph.ids := by rw [Graph.ids, nodes, Graph.ids]
  have callers : ∀ id, again.callers id = graph.callers id := by
    intro id
    rw [(GraphDoc.describes_toGraph read).callers_eq, (GraphDoc.describes_toGraph reread).callers_eq, nodes]
    simp only [callees]
  have callerSets : again.callerSets = graph.callerSets := by
    apply OrderedMap.ext_getD ∅
    · rw [indexed.callers, reindexed.callers, ids]
    · intro id
      exact OrderedSet.ext (callers id)
  have calleeSets : again.calleeSets = graph.calleeSets := by
    apply OrderedMap.ext_getD ∅
    · rw [indexed.callees, reindexed.callees, ids]
    · intro id
      exact OrderedSet.ext (callees id)
  cases again
  cases graph
  simp_all

/-- A checked graph that is written and read again is the same graph, with nodes and callees in the same order. If it
had been read before, nothing changes at all. -/
theorem reread_same (built : graph.Built) (checked : graph.check = .ok ()) :
    ∃ again, ofText graph.toText = .ok again ∧ again.same graph = true ∧ again.nodes = graph.nodes ∧
      (∀ id, again.callees id = graph.callees id) ∧
      ((∃ text, ofText text = .ok graph) → again = graph) := by
  have valid := check_eq_ok_iff.1 checked
  obtain ⟨again, read⟩ := GraphDoc.exists_toGraph (valid.wellformed_toDoc built.consistent)
  obtain ⟨rebuilt, rechecked⟩ := GraphDoc.built_toGraph read
  obtain ⟨nodes, callees⟩ := valid.reread read
  have keys := valid.keys_perm built
  have rekeys := (check_eq_ok_iff.1 rechecked).keys_perm rebuilt
  have ids : again.ids = graph.ids := by rw [Graph.ids, nodes, Graph.ids]
  rw [ids] at rekeys
  refine ⟨again, ofText_toText_eq_ok_iff.2 read, ?_, nodes, callees, ?_⟩
  · apply same_of_perm built.consistent.distinct nodes (rekeys.1.trans keys.1.symm) (rekeys.2.trans keys.2.symm)
    · intro id caller
      rw [← rebuilt.consistent.agree, ← built.consistent.agree, callees]
    · intro id callee
      rw [callees]
  · intro origin
    obtain ⟨text, origin⟩ := origin
    obtain ⟨doc, _, original⟩ := ofText_eq_ok_iff.1 origin
    exact eq_of_read original read nodes callees

/-- A start with characters to escape and the last line there is, and a paragraph without a name. -/
def outlandish : List Node := [
  { id := "\"\\"
    label := "\t\x01\n é😀"
    kind := .start
    firstLine := 0
    lastLine := 18446744073709551615 },
  { id := ""
    label := "/"
    kind := .normal
    firstLine := 10
    lastLine := 10
    invocations := .ofList [("", 10), ("\"\\", 4)] }]

/-- The paragraph calls itself before the start calls it. -/
def outlandishGraph : Graph :=
  let bare : Graph := {
    nodes := outlandish
    callerSets := .ofList [("\"\\", ∅), ("", ∅)]
    calleeSets := .ofList [("\"\\", ∅), ("", ∅)] }
  (bare.link "" "").link "\"\\" ""

theorem outlandish_reread : ∃ again, ofText outlandishGraph.toText = .ok again ∧ again.same outlandishGraph = true ∧
    again.callers "" = ["\"\\", ""] ∧ outlandishGraph.callers "" = ["", "\"\\"] ∧
    ofText again.toText = .ok again := by
  have added : GraphDoc.addNodes {} (outlandish.map fun node => { node }) = .ok _ := rfl
  have built : outlandishGraph.Built := .link (.link (GraphDoc.built_addNodes .empty added) "" "") "\"\\" ""
  have checked : outlandishGraph.check = .ok () := rfl
  obtain ⟨again, read, alike, _⟩ := reread_same built checked
  have reread := ofText_toText_eq_ok_iff.1 read
  obtain ⟨rebuilt, rechecked⟩ := GraphDoc.built_toGraph reread
  obtain ⟨third, settled, _, _, _, unchanged⟩ := reread_same rebuilt rechecked
  refine ⟨again, read, alike, ?_, rfl, ?_⟩
  · rw [(GraphDoc.describes_toGraph reread).callers]
    rfl
  · rw [settled, unchanged ⟨_, read⟩]

end Graph

end CallChart
