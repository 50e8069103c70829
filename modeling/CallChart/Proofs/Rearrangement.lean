import CallChart.Proofs.Acceptance
import CallChart.Proofs.Faithfulness
import CallChart.Proofs.Parallel
import CallChart.Proofs.Searches
import CallChart.Proofs.Survivors
import CallChart.Render

/-! What a diagram does not depend on: the order of the nodes, the order in which callers are known, and the lines of
invocations. Graphs that have alike nodes under the same ids, with the same callees in the same order, lose the same
nodes to pruning and are told under the same ids, so their diagrams have the same text. -/

namespace CallChart

section Invocations

def Node.bare (node : Node) : Node := { node with invocations := ∅ }

theorem Node.Alike.bare_eq {first second : Node} (alike : first.Alike second) : first.bare = second.bare := by
  cases first
  cases second
  obtain ⟨id, label, kind, firstLine, lastLine⟩ := alike
  cases id
  cases label
  cases kind
  cases firstLine
  cases lastLine
  rfl

theorem Node.Alike.of_bare_eq {first second : Node} (same : first.bare = second.bare) : first.Alike second := by
  cases first
  cases second
  cases same
  exact ⟨rfl, rfl, rfl, rfl, rfl⟩

def Occurrence.bare (occurrence : Occurrence) : Occurrence := { occurrence with node := occurrence.node.bare }

def Narrative.bare (narrative : Narrative) : Narrative := ⟨narrative.occurrences.map Occurrence.bare⟩

theorem lastIndex?_map {α β : Type} (test : β → Bool) (change : α → β) (items : List α) :
    lastIndex? test (items.map change) = lastIndex? (fun item => test (change item)) items := by
  induction items with
  | nil => rfl
  | cons first rest ih => simp only [List.map_cons, lastIndex?, ih]

namespace Narrative

variable (narrative : Narrative)

theorem position?_bare (id : String) : narrative.bare.position? id = narrative.position? id :=
  lastIndex?_map ..

theorem get?_bare (id : String) : narrative.bare.get? id = (narrative.get? id).map Occurrence.bare := by
  rw [get?, get?, position?_bare]
  cases narrative.position? id with
  | none => rfl
  | some index => exact List.getElem?_map ..

theorem returnsTo_bare (target : String) (position : Nat) :
    narrative.bare.returnsTo target position = narrative.returnsTo target position := by
  rw [returnsTo, returnsTo, position?_bare, get?_bare]
  cases narrative.get? target <;> rfl

theorem edges_bare : narrative.bare.edges = narrative.edges := by
  have same : ∀ occurrence position,
      narrative.bare.edgesFrom (Occurrence.bare occurrence) position = narrative.edgesFrom occurrence position := by
    intro occurrence position
    simp only [edgesFrom, returnsTo_bare]
    rfl
  have placed : narrative.bare.occurrences.zipIdx = narrative.occurrences.zipIdx.map (Prod.map Occurrence.bare id) :=
    List.zipIdx_map ..
  rw [edges, edges, placed, List.flatMap_map]
  simp only [Prod.map, id, same]

end Narrative

theorem Style.flowchart_bare (style : Style) (narrative : Narrative) (edges : List Edge) (view : View) :
    style.flowchart narrative.bare edges view = style.flowchart narrative edges view := by
  have endpoint : ∀ id, style.endpoint view narrative.bare id = style.endpoint view narrative id := by
    intro id
    rw [Style.endpoint, Style.endpoint, Narrative.get?_bare]
    cases narrative.get? id with
    | none => rfl
    | some occurrence => cases view <;> rfl
  have lines : style.edgeLine view narrative.bare = style.edgeLine view narrative := by
    funext edge
    rw [Style.edgeLine, Style.edgeLine, endpoint, endpoint]
  have bindings : narrative.bare.occurrences.map Style.binding = narrative.occurrences.map Style.binding := by
    rw [Narrative.bare, List.map_map]
    rfl
  cases view with
  | markdown => simp only [Style.flowchart, Style.lines, lines]
  | interactive => simp only [Style.flowchart, Style.lines, lines, bindings]

theorem Narrative.render_bare (narrative : Narrative) (format : Format) (style : Style) :
    Diagram.render ⟨narrative.bare, narrative.bare.edges⟩ format style =
      Diagram.render ⟨narrative, narrative.edges⟩ format style := by
  have values : narrative.bare.occurrences.map Occurrence.toJson = narrative.occurrences.map Occurrence.toJson := by
    rw [Narrative.bare, List.map_map]
    rfl
  cases format with
  | markdown => simp only [Diagram.render, Narrative.edges_bare, Style.flowchart_bare]
  | interactive => simp only [Diagram.render, Narrative.edges_bare, Style.flowchart_bare]
  | json => simp only [Diagram.render, Diagram.toJson, Narrative.edges_bare, values]

end Invocations

namespace Graph

/-- Two graphs show alike nodes under the same ids, which call the same in the same order. -/
def Akin (left right : Graph) : Prop := Twins left right fun _ => True

variable {left right : Graph}

namespace Akin

theorem kind?_eq (akin : left.Akin right) (id : String) : left.kind? id = right.kind? id :=
  Twins.kind?_eq akin trivial

theorem callees_eq (akin : left.Akin right) (id : String) : left.callees id = right.callees id :=
  akin.callees id trivial

theorem symm (akin : left.Akin right) : right.Akin left := by
  refine ⟨?_, fun id _ => (akin.callees_eq id).symm, fun _ _ _ _ => trivial⟩
  intro id _
  have same := akin.nodes id trivial
  generalize left.node? id = found, right.node? id = copy at same
  cases same with
  | some alike => exact .some alike.symm
  | none => exact .none

theorem callers_perm (akin : left.Akin right) (first : left.Consistent) (second : right.Consistent) (id : String) :
    (left.callers id).Perm (right.callers id) := by
  refine first.callers_perm second (fun caller callee => ?_) id
  rw [akin.callees_eq]

theorem reachesNormal_eq (akin : left.Akin right) (id : String) : left.reachesNormal id = right.reachesNormal id := by
  have through : left.Through = right.Through := by
    funext caller callee
    simp only [Through, akin.kind?_eq, akin.callees_eq]
  rw [Bool.eq_iff_iff, reachesNormal_iff_bears, reachesNormal_iff_bears]
  simp only [Bears, through, akin.kind?_eq, akin.callees_eq]

theorem dead_eq (akin : left.Akin right) (first : left.Consistent) (second : right.Consistent) {node twin : Node}
    (alike : node.Alike twin) : left.dead node = right.dead twin := by
  have uncalled : left.callers node.id = [] ↔ right.callers node.id = [] := by
    rw [← List.length_eq_zero_iff, ← List.length_eq_zero_iff, (akin.callers_perm first second node.id).length_eq]
  simp only [dead, ← alike.kind, ← alike.id, akin.callees_eq, akin.reachesNormal_eq, uncalled]

private theorem doomed_subset (akin : left.Akin right) (first : left.Consistent) (second : right.Consistent) :
    left.doomed ⊆ right.doomed := by
  intro id deleted
  obtain ⟨node, chosen, rfl⟩ := List.mem_map.1 deleted
  obtain ⟨member, dead⟩ := List.mem_filter.1 chosen
  obtain ⟨twin, found, alike⟩ := Twins.node?_eq_some akin trivial (node?_of_mem first.distinct member)
  rw [akin.dead_eq first second alike] at dead
  rw [alike.id]
  exact List.mem_map_of_mem (List.mem_filter.2 ⟨(node?_some found).1, dead⟩)

theorem mem_doomed_iff (akin : left.Akin right) (first : left.Consistent) (second : right.Consistent) {id : String} :
    id ∈ left.doomed ↔ id ∈ right.doomed :=
  ⟨fun deleted => akin.doomed_subset first second deleted, fun deleted => akin.symm.doomed_subset second first deleted⟩

theorem without (akin : left.Akin right) {gone lost : List String} (same : ∀ id, id ∈ gone ↔ id ∈ lost) :
    (left.without gone).Akin (right.without lost) := by
  refine ⟨?_, ?_, fun _ _ _ _ => trivial⟩
  · intro id _
    simp only [node?_without, same]
    split
    · exact .none
    · exact akin.nodes id trivial
  · intro id _
    simp only [callees_without, same, akin.callees_eq]

/-- Both lose the same nodes, pass by pass. -/
theorem prune (akin : left.Akin right) (first : left.Consistent) (second : right.Consistent) :
    left.prune.Akin right.prune := by
  fun_induction Graph.prune left generalizing right with
  | case1 left alive =>
    have living : right.doomed = [] := by
      rw [List.eq_nil_iff_forall_not_mem]
      intro id deleted
      rw [← akin.mem_doomed_iff first second, alive] at deleted
      cases deleted
    rw [Graph.prune, if_pos living]
    exact akin
  | case2 left dying ih =>
    have deleted : right.doomed ≠ [] := by
      obtain ⟨id, member⟩ := List.exists_mem_of_ne_nil _ dying
      exact List.ne_nil_of_mem ((akin.mem_doomed_iff first second).1 member)
    have passed : right.prune = (right.without right.doomed).prune := by rw [Graph.prune, if_neg deleted]
    rw [passed]
    exact ih (akin.without fun _ => akin.mem_doomed_iff first second) (first.without _) (second.without _)

private theorem shared_subset (akin : left.Akin right) (first : left.Consistent) (second : right.Consistent) :
    left.shared ⊆ right.shared := by
  apply first.shared_subset second
  · intro id repeatable
    rw [repeatable_iff] at repeatable ⊢
    rw [← akin.kind?_eq]
    exact repeatable
  · intro id
    exact (akin.callers_perm first second id).length_eq.le
  · intro id
    rw [akin.callees_eq]
    exact List.Subset.refl _

theorem mem_shared_iff (akin : left.Akin right) (first : left.Consistent) (second : right.Consistent) {id : String} :
    id ∈ left.shared ↔ id ∈ right.shared :=
  ⟨fun member => akin.shared_subset first second member, fun member => akin.symm.shared_subset second first member⟩

end Akin

def SameNames (first second : List (String × Node)) : Prop :=
  first.map (fun entry => (entry.1, entry.2.id)) = second.map fun entry => (entry.1, entry.2.id)

namespace SameNames

variable {first second : Narrative}

theorem ids_eq (same : SameNames first.roster second.roster) : first.ids = second.ids := by
  have names := congrArg (List.map Prod.fst) same
  rw [List.map_map, List.map_map] at names
  rw [Narrative.ids_eq_roster, Narrative.ids_eq_roster]
  exact names

theorem eq_of_matches (same : SameNames first.roster second.roster) {left right : String}
    (pair : first.Matches second left right) : left = right := by
  rw [Narrative.Matches, ← same.ids_eq, List.zip, List.zipWith_self] at pair
  obtain ⟨id, _, both⟩ := List.mem_map.1 pair
  cases both
  rfl

theorem renamed_eq (same : SameNames first.roster second.roster) (id : String) :
    first.renamed id = second.renamed id := by
  have counts := congrArg (List.countP fun entry : String × String => entry.2 = id && entry.1 ≠ id) same
  rw [List.countP_map, List.countP_map] at counts
  rw [Narrative.renamed_eq_roster, Narrative.renamed_eq_roster]
  exact counts

theorem nextId_eq {walk other : Walk} (same : SameNames walk.told.roster other.told.roster) {shared others : List String}
    (members : ∀ id, id ∈ shared ↔ id ∈ others) {node twin : Node} (alike : node.Alike twin) :
    walk.nextId shared node = other.nextId others twin := by
  have contains : walk.told.contains node.id = other.told.contains node.id := by
    rw [Bool.eq_iff_iff, Narrative.contains_iff, Narrative.contains_iff, same.ids_eq]
  simp only [Walk.nextId, ← alike.kind, ← alike.id, contains, same.renamed_eq, members]

end SameNames

theorem Akin.inStep (akin : left.Akin right) (first : left.Consistent) (second : right.Consistent) :
    InStep left right left.shared right.shared SameNames where
  single same := by
    constructor
    · intro one two other pair twin
      exact (same.eq_of_matches pair).trans (same.eq_of_matches twin).symm
    · intro one two other pair twin
      exact (same.eq_of_matches pair).symm.trans (same.eq_of_matches twin)
  tell {walk other node twin} _ _ alike _ _ same := by
    rw [same.nextId_eq (fun _ => akin.mem_shared_iff first second) alike, SameNames, List.map_append, List.map_append,
      same, List.map_cons, List.map_cons, alike.id]

theorem SameNames.bare_eq {first second : Narrative} (same : SameNames first.roster second.roster)
    (mirrors : first.Mirrors second) : first.bare = second.bare := by
  rw [Narrative.bare, Narrative.bare]
  congr 1
  rw [← List.forall₂_eq_eq_eq, List.forall₂_map_left_iff, List.forall₂_map_right_iff]
  refine mirrors.paired.imp ?_
  intro occurrence copy pair
  obtain ⟨⟨node, prev, next⟩, named⟩ := pair
  have id := same.eq_of_matches named
  have before := List.forall₂_eq_eq_eq ▸ prev.imp fun _ _ pair => same.eq_of_matches pair
  have after := List.forall₂_eq_eq_eq ▸ next.imp fun _ _ pair => same.eq_of_matches pair
  simp only [Occurrence.bare, id, node.bare_eq, OrderedSet.ext before, OrderedSet.ext after]

/-- The narratives of graphs that are akin differ in invocations only. -/
theorem Akin.narrate (akin : left.Akin right) (first : left.Consistent) (second : right.Consistent)
    (valid : left.Valid) (sound : right.Valid) :
    ∃ narrative again, left.narrate = .ok narrative ∧ right.narrate = .ok again ∧ narrative.bare = again.bare := by
  obtain ⟨narrative, told⟩ := valid.narrate
  obtain ⟨entry, begun, _⟩ := valid.entry
  obtain ⟨other, opened, _, only⟩ := sound.entry
  obtain ⟨found, start⟩ := first.entry?_node? begun
  obtain ⟨twin, copied, alike⟩ := Twins.node?_eq_some akin trivial found
  have same : twin = other := only twin (node?_some copied).1 (alike.kind ▸ start)
  obtain ⟨again, retold, mirrors, names⟩ := Twins.narrate akin (akin.inStep first second) begun opened
    (same ▸ alike.id) trivial rfl told
  exact ⟨narrative, again, told, retold, names.bare_eq mirrors⟩

/-- Graphs that are akin have the same text in every format. -/
theorem Akin.render (akin : left.Akin right) (first : left.Consistent) (second : right.Consistent)
    (valid : left.Valid) (sound : right.Valid) (format : Format) (style : Style) :
    ∃ text, left.render format style = .ok text ∧ right.render format style = .ok text := by
  obtain ⟨narrative, again, told, retold, same⟩ := (akin.prune first second).narrate first.prune second.prune
    (valid.prune first) (sound.prune second)
  refine ⟨Diagram.render ⟨narrative, narrative.edges⟩ format style, ?_, ?_⟩
  · rw [Graph.render, diagram, told]
    rfl
  · rw [Graph.render, diagram, retold, ← narrative.render_bare, same, again.render_bare]
    rfl

end Graph

structure NodeDoc.Alike (first second : NodeDoc) : Prop where
  node : first.node.Alike second.node
  callers : first.callers.Perm second.callers
  callees : first.callees = second.callees

namespace GraphDoc

/-- Two documents declare the same but for invocations, nodes and callers in whatever order. -/
def Alike (first second : GraphDoc) : Prop :=
  ∃ middle, first.nodes.Perm middle ∧ List.Forall₂ NodeDoc.Alike middle second.nodes

variable {first second : GraphDoc} {graph again : Graph}

namespace Alike

theorem copy (alike : first.Alike second) {item : NodeDoc} (listed : item ∈ first.nodes) :
    ∃ copy ∈ second.nodes, item.Alike copy := by
  obtain ⟨middle, permuted, pairs⟩ := alike
  obtain ⟨index, inside, rfl⟩ := List.getElem_of_mem (permuted.mem_iff.1 listed)
  have within : index < second.nodes.length := pairs.length_eq ▸ inside
  exact ⟨second.nodes[index], List.getElem_mem within, pairs.get inside within⟩

theorem original (alike : first.Alike second) {copy : NodeDoc} (listed : copy ∈ second.nodes) :
    ∃ item ∈ first.nodes, item.Alike copy := by
  obtain ⟨middle, permuted, pairs⟩ := alike
  obtain ⟨index, inside, rfl⟩ := List.getElem_of_mem listed
  have within : index < middle.length := pairs.length_eq ▸ inside
  exact ⟨middle[index], permuted.mem_iff.2 (List.getElem_mem within), pairs.get within inside⟩

theorem ids_perm (alike : first.Alike second) : first.ids.Perm second.ids := by
  obtain ⟨middle, permuted, pairs⟩ := alike
  have same : middle.map (·.node.id) = second.nodes.map (·.node.id) := by
    rw [← List.forall₂_eq_eq_eq, List.forall₂_map_left_iff, List.forall₂_map_right_iff]
    exact pairs.imp fun _ _ pair => pair.node.id
  rw [ids, ids, ← same]
  exact permuted.map _

theorem starts (alike : first.Alike second) {start : NodeDoc}
    (single : first.nodes.filter (·.node.kind = .start) = [start]) :
    ∃ other, second.nodes.filter (·.node.kind = .start) = [other] ∧ start.Alike other := by
  obtain ⟨middle, permuted, pairs⟩ := alike
  have kept := permuted.filter (·.node.kind = .start)
  rw [single] at kept
  have chosen : List.Forall₂ NodeDoc.Alike (middle.filter (·.node.kind = .start))
      (second.nodes.filter (·.node.kind = .start)) := by
    apply List.rel_filter ?_ pairs
    intro item copy pair
    simp [pair.node.kind]
  rw [List.perm_singleton.1 kept.symm] at chosen
  generalize second.nodes.filter (·.node.kind = .start) = others at chosen
  cases chosen with
  | cons pair rest =>
    cases rest
    exact ⟨_, rfl, pair⟩

/-- The rules of a document do not look at what may differ. -/
theorem wellformed (alike : first.Alike second) (wellformed : first.Wellformed) : second.Wellformed := by
  refine ⟨alike.ids_perm.nodup_iff.1 wellformed.distinct, ?_, ?_, ?_, ?_⟩
  · intro copy listed
    obtain ⟨item, original, pair⟩ := alike.original listed
    rw [← pair.node.firstLine, ← pair.node.lastLine]
    exact wellformed.forward item original
  · obtain ⟨start, single, uncalled⟩ := wellformed.start
    obtain ⟨other, alone, pair⟩ := alike.starts single
    refine ⟨other, alone, ?_⟩
    intro copy listed
    obtain ⟨item, original, same⟩ := alike.original listed
    rw [← pair.node.id, ← same.callees]
    exact uncalled item original
  · intro copy listed id side
    obtain ⟨item, original, pair⟩ := alike.original listed
    rw [← pair.callers.mem_iff, ← pair.callees] at side
    exact alike.ids_perm.mem_iff.1 (wellformed.resolved item original id side)
  · intro caller calling callee called
    obtain ⟨source, leaves, outward⟩ := alike.original calling
    obtain ⟨target, arrives, inward⟩ := alike.original called
    rw [← outward.callees, ← inward.node.id, ← outward.node.id, ← inward.callers.mem_iff]
    exact wellformed.agree source leaves target arrives

theorem akin (alike : first.Alike second) (read : first.toGraph = .ok graph) (reread : second.toGraph = .ok again) :
    graph.Akin again := by
  have describes := describes_toGraph read
  have redescribes := describes_toGraph reread
  have valid := Graph.check_eq_ok_iff.1 (built_toGraph read).2
  have sound := Graph.check_eq_ok_iff.1 (built_toGraph reread).2
  have ids : ∀ id, id ∈ graph.ids ↔ id ∈ again.ids := by
    intro id
    rw [describes.ids, redescribes.ids]
    exact alike.ids_perm.mem_iff
  have pair : ∀ id ∈ graph.ids, ∃ item ∈ first.nodes, ∃ copy ∈ second.nodes, item.Alike copy ∧ item.node.id = id := by
    intro id known
    rw [describes.ids] at known
    obtain ⟨item, listed, rfl⟩ := List.mem_map.1 known
    obtain ⟨copy, relisted, pair⟩ := alike.copy listed
    exact ⟨item, listed, copy, relisted, pair, rfl⟩
  refine ⟨?_, ?_, fun _ _ _ _ => trivial⟩
  · intro id _
    by_cases known : id ∈ graph.ids
    · obtain ⟨item, listed, copy, relisted, pair, rfl⟩ := pair id known
      have found : graph.node? item.node.id = some item.node :=
        Graph.node?_of_mem (built_toGraph read).1.consistent.distinct (describes.nodes ▸ List.mem_map_of_mem listed)
      have copied : again.node? copy.node.id = some copy.node :=
        Graph.node?_of_mem (built_toGraph reread).1.consistent.distinct (redescribes.nodes ▸ List.mem_map_of_mem relisted)
      rw [found, pair.node.id, copied]
      exact .some pair.node
    · have missing : ∀ graph : Graph, id ∉ graph.ids → graph.node? id = none := by
        intro graph unknown
        rw [← Graph.contains_iff_mem_ids, Graph.contains, Option.isSome_iff_ne_none, not_not] at unknown
        exact unknown
      rw [missing graph known, missing again (fun present => known ((ids id).2 present))]
      exact .none
  · intro id _
    by_cases known : id ∈ graph.ids
    · obtain ⟨item, listed, copy, relisted, pair, rfl⟩ := pair id known
      rw [describes.callees item listed, pair.node.id, redescribes.callees copy relisted, pair.callees]
    · rw [valid.callees_eq_nil known, sound.callees_eq_nil (fun present => known ((ids id).2 present))]

end Alike

/-- The same document, with its nodes and the callers of each node in whatever order. -/
def Rearranged (first second : GraphDoc) : Prop :=
  ∃ middle, first.nodes.Perm middle ∧
    List.Forall₂ (fun item copy => item.node = copy.node ∧ item.callers.Perm copy.callers ∧ item.callees = copy.callees)
      middle second.nodes

theorem Rearranged.alike (rearranged : first.Rearranged second) : first.Alike second := by
  obtain ⟨middle, permuted, pairs⟩ := rearranged
  refine ⟨middle, permuted, pairs.imp ?_⟩
  intro item copy pair
  obtain ⟨node, callers, callees⟩ := pair
  exact ⟨node ▸ .refl _, callers, callees⟩

/-- The text of a diagram depends on the order of the callees alone: a document whose nodes and callers are rearranged
is accepted as well, and rendered as the same text in every format and style. -/
theorem render_rearranged (read : first.toGraph = .ok graph) (rearranged : first.Rearranged second) :
    ∃ again, second.toGraph = .ok again ∧
      ∀ format style, ∃ text, graph.render format style = .ok text ∧ again.render format style = .ok text := by
  have alike := rearranged.alike
  obtain ⟨again, reread⟩ := exists_toGraph (alike.wellformed (wellformed_toGraph read))
  obtain ⟨built, checked⟩ := built_toGraph read
  obtain ⟨rebuilt, rechecked⟩ := built_toGraph reread
  refine ⟨again, reread, ?_⟩
  exact (alike.akin read reread).render built.consistent rebuilt.consistent (Graph.check_eq_ok_iff.1 checked)
    (Graph.check_eq_ok_iff.1 rechecked)

def looping : GraphDoc := ⟨[
  .brief "MAIN" .start [] ["LOOP", "SAVE"],
  .brief "LOOP" .loop ["MAIN"] ["SAVE", "READ"],
  .brief "SAVE" .normal ["MAIN", "LOOP"] [],
  .brief "READ" .normal ["LOOP"] []]⟩

def loopingBackwards : GraphDoc := ⟨[
  .brief "READ" .normal ["LOOP"] [],
  .brief "SAVE" .normal ["LOOP", "MAIN"] [],
  .brief "LOOP" .loop ["MAIN"] ["SAVE", "READ"],
  .brief "MAIN" .start [] ["LOOP", "SAVE"]]⟩

theorem looping_rearranged :
    looping.Rearranged loopingBackwards ∧
      ∃ graph again, looping.toGraph = .ok graph ∧ loopingBackwards.toGraph = .ok again ∧
        graph.callers "SAVE" = ["MAIN", "LOOP"] ∧ again.callers "SAVE" = ["LOOP", "MAIN"] ∧
        ∀ format style, ∃ text, graph.render format style = .ok text ∧ again.render format style = .ok text := by
  have rearranged : looping.Rearranged loopingBackwards := by
    refine ⟨looping.nodes.reverse, (List.reverse_perm _).symm, ?_⟩
    refine .cons ⟨rfl, .refl _, rfl⟩ (.cons ⟨rfl, .swap _ _ _, rfl⟩ (.cons ⟨rfl, .refl _, rfl⟩ (.cons ⟨rfl, .refl _, rfl⟩ .nil)))
  obtain ⟨graph, read⟩ : ∃ graph, looping.toGraph = .ok graph := ⟨_, rfl⟩
  obtain ⟨again, reread, same⟩ := render_rearranged read rearranged
  refine ⟨rearranged, graph, again, read, reread, ?_, ?_, same⟩
  · rw [(describes_toGraph read).callers]
    rfl
  · rw [(describes_toGraph reread).callers]
    rfl

end GraphDoc

end CallChart
