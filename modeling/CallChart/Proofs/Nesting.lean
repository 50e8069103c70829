import Mathlib.Data.List.Perm.Subperm
import Mathlib.Data.List.Permutation
import CallChart.Proofs.Histories
import CallChart.Proofs.Narration

/-! How deep tellings nest. A telling takes up others, one for each callee, and the nodes that are open at any time are
distinct nodes, told already, each of which calls the next. So tellings nest no deeper than there are nodes, with
one more for a node that is not opened again. A walk that is cut off at that depth is the whole walk. -/

namespace CallChart

/-- A telling that is taken up: the open calls, innermost first, the id to tell, and the walk so far. -/
structure Telling where
  chain : List String
  id : String
  walk : Walk

namespace Graph

variable {graph : Graph} {shared : List String}

/-- One telling, where the tellings that it takes up are left to another function. -/
def visitWith (graph : Graph) (shared : List String)
    (inner : List String → String → Walk → Except GraphError (Visit × Walk)) (chain : List String) (id : String)
    (walk : Walk) : Except GraphError (Visit × Walk) :=
  match graph.node? id with
  | none => .error (.unknownCallee id)
  | some node =>
    let name := walk.nextId shared node
    if !node.kind.duplicable && walk.told.tells id then .ok (.leaf id, walk)
    else if id ∈ chain then .ok (.leaf name, walk.tell name node)
    else
      match chain.head?.bind (fun caller => walk.reached.find? (id, caller)) with
      | some entry => .ok (⟨entry, none⟩, walk)
      | none =>
        match graph.tellCallees (inner (id :: chain)) node name (graph.callees id) { main := [name] }
            ((walk.tell name node).note node chain.head? name) with
        | .error fault => .error fault
        | .ok (ends, walk) => .ok (finish node name (graph.callees id) ends walk)

/-- The walk with tellings nested up to a depth. What would lie deeper is left to another function. -/
def visitWithin (graph : Graph) (shared : List String)
    (deeper : List String → String → Walk → Except GraphError (Visit × Walk)) :
    Nat → List String → String → Walk → Except GraphError (Visit × Walk)
  | 0 => deeper
  | depth + 1 => graph.visitWith shared (graph.visitWithin shared deeper depth)

def narrateWithin (graph : Graph) (deeper : List String → String → Walk → Except GraphError (Visit × Walk))
    (depth : Nat) : Except GraphError Narrative :=
  match graph.entry? with
  | none => .error .noStart
  | some entry => (graph.visitWithin graph.shared deeper depth [] entry.id {}).map (fun result => result.2.told)

inductive Proceeds (graph : Graph) (shared : List String) (opening : Opening) : List String → Ends → Walk → Prop where
  | opened : Proceeds graph shared opening [] { main := [opening.name shared] } (opening.begun shared)
  | branched {done later : List String} {callee : String} {ends : Ends} {walk told : Walk} {visit : Visit}
      (before : Proceeds graph shared opening done ends walk)
      (listed : graph.callees opening.node.id = done ++ callee :: later)
      (visited : graph.visit shared (opening.node.id :: opening.chain) callee walk = .ok (visit, told))
      (branch : graph.branches opening.node callee = true) :
      Proceeds graph shared opening (done ++ [callee]) { ends with branches := ends.branches ++ visit.ends.getD [] }
        { told with told := told.told.link (opening.name shared) visit.entry }
  | sequenced {done later : List String} {callee : String} {ends : Ends} {walk told : Walk} {visit : Visit}
      (before : Proceeds graph shared opening done ends walk)
      (listed : graph.callees opening.node.id = done ++ callee :: later)
      (visited : graph.visit shared (opening.node.id :: opening.chain) callee walk = .ok (visit, told))
      (plain : graph.branches opening.node callee = false) :
      Proceeds graph shared opening (done ++ [callee])
        { ends with
          ran := true
          main := if graph.closes opening.node callee later then ends.main else visit.ends.getD ends.main }
        { told with told := told.told.linkAll ends.main visit.entry }

/-- A telling takes up another one, for the next callee of the node that it has opened. -/
inductive TakesUp (graph : Graph) (shared : List String) : Telling → Telling → Prop where
  | next {opening : Opening} {done later : List String} {callee : String} {ends : Ends} {walk : Walk}
      (fresh : opening.Fresh graph) (proceeds : graph.Proceeds shared opening done ends walk)
      (listed : graph.callees opening.node.id = done ++ callee :: later) :
      TakesUp graph shared ⟨opening.chain, opening.node.id, opening.start⟩
        ⟨opening.node.id :: opening.chain, callee, walk⟩

inductive Taken (graph : Graph) : Nat → Telling → Prop where
  | first {entry : Node} (first : graph.entry? = some entry) : Taken graph 1 ⟨[], entry.id, {}⟩
  | inner {depth : Nat} {outer inner : Telling} (taken : Taken graph depth outer)
      (next : graph.TakesUp graph.shared outer inner) : Taken graph (depth + 1) inner

theorem visit_eq_visitWith (graph : Graph) (shared : List String) :
    graph.visit shared = graph.visitWith shared (graph.visit shared) := by
  funext chain id walk
  rw [visit, visitWith]
  split
  · next absent => rw [absent]
  · next node found =>
    rw [found]
    rfl

/-- What a telling gives depends on no other tellings than those that it takes up. -/
private theorem tellCallees_congr {opening : Opening} (fresh : opening.Fresh graph)
    {other : List String → String → Walk → Except GraphError (Visit × Walk)}
    (same : ∀ inner, graph.TakesUp shared ⟨opening.chain, opening.node.id, opening.start⟩ inner →
      other inner.chain inner.id inner.walk = graph.visit shared inner.chain inner.id inner.walk)
    {left done : List String} {ends : Ends} {walk : Walk} (listed : graph.callees opening.node.id = done ++ left)
    (proceeds : graph.Proceeds shared opening done ends walk) :
    graph.tellCallees (other (opening.node.id :: opening.chain)) opening.node (opening.name shared) left ends walk =
      graph.tellCallees (graph.visit shared (opening.node.id :: opening.chain)) opening.node (opening.name shared)
        left ends walk := by
  induction left generalizing done ends walk with
  | nil => rfl
  | cons callee later ih =>
    have next : graph.callees opening.node.id = (done ++ [callee]) ++ later := by rw [listed, List.append_assoc]; rfl
    have here := same _ (.next fresh proceeds listed)
    unfold tellCallees
    rw [here]
    cases visited : graph.visit shared (opening.node.id :: opening.chain) callee walk with
    | error fault => rfl
    | ok result =>
      cases branch : graph.branches opening.node callee with
      | true => exact ih next (.branched proceeds listed visited branch)
      | false => exact ih next (.sequenced proceeds listed visited branch)

theorem visitWith_congr {other : List String → String → Walk → Except GraphError (Visit × Walk)} (outer : Telling)
    (same : ∀ inner, graph.TakesUp shared outer inner →
      other inner.chain inner.id inner.walk = graph.visit shared inner.chain inner.id inner.walk) :
    graph.visitWith shared other outer.chain outer.id outer.walk =
      graph.visit shared outer.chain outer.id outer.walk := by
  obtain ⟨chain, id, walk⟩ := outer
  rw [visit_eq_visitWith]
  unfold visitWith
  cases found : graph.node? id with
  | none => rfl
  | some node =>
    obtain ⟨_, rfl⟩ := node?_some found
    dsimp only
    split
    · rfl
    next unsettled =>
    split
    · rfl
    next closed =>
    split
    · rfl
    next unknown =>
      have fresh : (Opening.mk chain node walk).Fresh graph := by
        refine ⟨found, ?_, closed, ?_⟩
        · cases duplicable : node.kind.duplicable <;> simp_all
        · intro caller head
          rw [Option.mem_def.1 head] at unknown
          exact unknown
      have callees := tellCallees_congr fresh same (List.nil_append _).symm .opened
      simp only [Opening.name, Opening.begun] at callees
      rw [callees]

theorem TakesUp.fewer {outer inner : Telling} (next : graph.TakesUp shared outer inner) :
    graph.unseen inner.chain < graph.unseen outer.chain := by
  cases next with
  | next fresh _ _ => exact unseen_cons_lt fresh.found fresh.closed

/-- With room for the nodes that are not open, nothing is left to lie deeper. -/
theorem visitWithin_eq (graph : Graph) (shared : List String)
    (deeper : List String → String → Walk → Except GraphError (Visit × Walk)) {depth : Nat} {chain : List String}
    (room : graph.unseen chain < depth) (id : String) (walk : Walk) :
    graph.visitWithin shared deeper depth chain id walk = graph.visit shared chain id walk := by
  induction depth generalizing chain id walk with
  | zero => cases room
  | succ depth ih =>
    refine visitWith_congr ⟨chain, id, walk⟩ fun inner next => ?_
    have fewer : graph.unseen inner.chain < graph.unseen chain := next.fewer
    exact ih (by omega) inner.id inner.walk

theorem narrateWithin_eq (graph : Graph) (deeper : List String → String → Walk → Except GraphError (Visit × Walk)) :
    graph.narrateWithin deeper (graph.nodes.length + 1) = graph.narrate := by
  have room : graph.unseen [] < graph.nodes.length + 1 := Nat.lt_succ_of_le List.countP_le_length
  unfold narrateWithin narrate
  cases graph.entry? with
  | none => rfl
  | some entry =>
    dsimp only
    rw [visitWithin_eq graph graph.shared deeper room]

end Graph

namespace Law.Kept

variable {graph : Graph} {shared : List String} {law : Law}

private theorem proceeds (kept : Kept graph shared .any law) {opening : Opening} (fresh : opening.Fresh graph)
    (holds : law.before opening.chain opening.node.id opening.start) {done : List String} {ends : Ends} {walk : Walk}
    (proceeds : graph.Proceeds shared opening done ends walk) : law.amid opening done ends walk := by
  induction proceeds with
  | opened => exact kept.opened fresh trivial holds
  | branched _ listed visited branch ih =>
    have told := kept.visit visited (kept.called fresh listed trivial ih)
    exact kept.branched fresh listed branch trivial trivial ih told
  | sequenced _ listed visited plain ih =>
    have told := kept.visit visited (kept.called fresh listed trivial ih)
    exact kept.sequenced fresh listed plain trivial trivial ih told

/-- The rule for tellings that need not come to an end: a law that is kept holds whenever one is taken up. -/
theorem takesUp (kept : Kept graph shared .any law) {outer inner : Telling} (next : graph.TakesUp shared outer inner)
    (holds : law.before outer.chain outer.id outer.walk) : law.before inner.chain inner.id inner.walk := by
  cases next with
  | next fresh proceeds listed => exact kept.called fresh listed trivial (kept.proceeds fresh holds proceeds)

end Law.Kept

namespace Graph

variable {graph : Graph}

theorem Taken.depth_eq {depth : Nat} {telling : Telling} (taken : graph.Taken depth telling) :
    depth = telling.chain.length + 1 := by
  induction taken with
  | first => rfl
  | inner _ next ih =>
    cases next
    rw [ih, List.length_cons]

theorem Consistent.approach (consistent : graph.Consistent) {depth : Nat} {telling : Telling}
    (taken : graph.Taken depth telling) : ∃ root, graph.Approach root telling.chain telling.id telling.walk := by
  induction taken with
  | @first entry first =>
    obtain ⟨found, start⟩ := consistent.entry?_node? first
    exact ⟨entry.id, approach_entry found start⟩
  | inner _ next ih =>
    obtain ⟨root, approach⟩ := ih
    exact ⟨root, (trailLaw_kept graph graph.shared root).takesUp next approach⟩

/-- Whatever the graph, each telling has distinct nodes open, told already, each of which calls the next and the last of
which calls what is told. A telling leaves fewer nodes closed than the one that took it up, so it lies no deeper than
there are nodes and one, and telling the graph with tellings nested that deep is telling it. -/
theorem tellings_nest (built : graph.Built) :
    (∀ depth telling, graph.Taken depth telling →
      telling.chain.Nodup ∧
      (∀ id ∈ telling.chain, graph.contains id = true ∧ telling.walk.told.tells id = true) ∧
      (telling.id :: telling.chain).IsChain (fun callee caller => graph.Calls caller callee) ∧
      depth = telling.chain.length + 1 ∧ depth ≤ graph.nodes.length + 1 ∧
      (∀ inner, graph.TakesUp graph.shared telling inner → graph.unseen inner.chain < graph.unseen telling.chain) ∧
      ∀ other : List String → String → Walk → Except GraphError (Visit × Walk),
        (∀ inner, graph.TakesUp graph.shared telling inner →
          other inner.chain inner.id inner.walk = graph.visit graph.shared inner.chain inner.id inner.walk) →
        graph.visitWith graph.shared other telling.chain telling.id telling.walk =
          graph.visit graph.shared telling.chain telling.id telling.walk) ∧
      ∀ deeper, graph.narrateWithin deeper (graph.nodes.length + 1) = graph.narrate := by
  refine ⟨fun depth telling taken => ?_, narrateWithin_eq graph⟩
  obtain ⟨root, trail, _, call, _⟩ := built.consistent.approach taken
  have known : ∀ id ∈ telling.chain, graph.contains id = true := by
    intro id inside
    obtain ⟨name, node, member, rfl⟩ := Narrative.tells_iff.1 (trail.told id inside)
    exact contains_iff.2 ⟨node, (trail.behind name node member).1⟩
  have few : telling.chain.length ≤ graph.nodes.length := by
    have listed : telling.chain ⊆ graph.ids := fun id inside => contains_iff_mem_ids.1 (known id inside)
    have fewer := (trail.distinct.subperm listed).length_le
    rwa [ids, List.length_map] at fewer
  have depth_eq := taken.depth_eq
  refine ⟨trail.distinct, fun id inside => ⟨known id inside, trail.told id inside⟩,
    List.isChain_cons.2 ⟨call, trail.calls⟩, depth_eq, by omega, fun inner next => next.fewer,
    fun other same => visitWith_congr telling same⟩

/-- Two start nodes and a loop, linked in circles, to themselves and to an id that is no node. -/
def knotted : List Edit := [
  .brief "MAIN" .start, .brief "OPEN" .normal, .brief "LOOP" .loop, .brief "SPARE" .start, .link "MAIN" "OPEN",
  .link "OPEN" "LOOP", .link "OPEN" "OPEN", .link "LOOP" "SPARE", .link "LOOP" "OPEN", .link "LOOP" "LOOP",
  .link "SPARE" "GONE", .link "SPARE" "MAIN"]

/-- A telling whose node is opened takes up the first callee. -/
private theorem Taken.opened {depth : Nat} (opening : Opening) {callee : String} {later : List String}
    (taken : graph.Taken depth ⟨opening.chain, opening.node.id, opening.start⟩) (fresh : opening.Fresh graph)
    (listed : graph.callees opening.node.id = callee :: later) :
    graph.Taken (depth + 1) ⟨opening.node.id :: opening.chain, callee, opening.begun graph.shared⟩ :=
  .inner taken (.next fresh .opened listed)

/-- All nodes are open when the missing id is taken up, so the bound on the depth is reached. -/
theorem knotted_nest :
    (edited knotted).Built ∧ (edited knotted).nodes.length = 4 ∧
      (∃ telling, (edited knotted).Taken 5 telling ∧ telling.id = "GONE" ∧
        telling.chain = ["SPARE", "LOOP", "OPEN", "MAIN"] ∧ telling.chain.Nodup) ∧
      (∀ deeper, (edited knotted).narrateWithin deeper 5 = (edited knotted).narrate) ∧
      (edited knotted).narrate = .error (.unknownCallee "GONE") := by
  have built := built_edited knotted
  obtain ⟨nested, whole⟩ := tellings_nest built
  have one : (edited knotted).Taken 1 ⟨[], "MAIN", {}⟩ := @Taken.first _ ⟨"MAIN", "MAIN", .start, 1, 1, ∅⟩ rfl
  have two := Taken.opened ⟨_, ⟨"MAIN", "MAIN", .start, 1, 1, ∅⟩, _⟩ one ⟨rfl, by decide, by decide, nofun⟩ rfl
  have three := Taken.opened ⟨_, ⟨"OPEN", "OPEN", .normal, 1, 1, ∅⟩, _⟩ two
    ⟨rfl, by decide, by decide, by rintro _ ⟨⟩; rfl⟩ rfl
  have four := Taken.opened ⟨_, ⟨"LOOP", "LOOP", .loop, 1, 1, ∅⟩, _⟩ three
    ⟨rfl, by decide, by decide, by rintro _ ⟨⟩; rfl⟩ rfl
  have five := Taken.opened ⟨_, ⟨"SPARE", "SPARE", .start, 1, 1, ∅⟩, _⟩ four
    ⟨rfl, by decide, by decide, by rintro _ ⟨⟩; rfl⟩ rfl
  exact ⟨built, rfl, ⟨_, five, rfl, rfl, (nested _ _ five).1⟩, whole, by cbv⟩

end Graph

end CallChart
