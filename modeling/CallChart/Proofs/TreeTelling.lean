import CallChart.Proofs.CallTrees
import CallChart.Proofs.Naming
import CallChart.Proofs.Parallel

/-! How a call tree is told. No node of a tree is met twice, so whatever the walk remembers does not matter:
it tells the nodes of the tree in order, each under its own id, and makes the links of the flow through
the tree. -/

namespace CallChart

namespace Walk

variable {walk later : Walk} {chain : List String} {nodes : List Node} {links : List (String × String)}

/-- One walk has over another some nodes, told under their own ids, and some links. -/
structure Adds (walk later : Walk) (nodes : List Node) (links : List (String × String)) : Prop where
  roster : later.told.roster = walk.told.roster ++ nodes.map fun node => (node.id, node)
  links : ∀ source target,
    later.told.Linked source target ↔ walk.told.Linked source target ∨ (source, target) ∈ links
  noted : ∀ callee caller, later.Noted callee caller → walk.Noted callee caller ∨ callee ∈ nodes.map Node.id

/-- All is told under own ids so far, and what is open or noted is told. -/
structure Plain (walk : Walk) (chain : List String) : Prop where
  named : ∀ name node, (name, node) ∈ walk.told.roster → name = node.id
  opened : ∀ id ∈ chain, id ∈ walk.told.ids
  noted : ∀ callee caller, walk.Noted callee caller → callee ∈ walk.told.ids

namespace Adds

theorem refl (walk : Walk) : walk.Adds walk [] [] := ⟨by simp, by simp, fun _ _ noted => Or.inl noted⟩

theorem trans {last : Walk} {more : List Node} {others : List (String × String)} (first : walk.Adds later nodes links)
    (second : later.Adds last more others) : walk.Adds last (nodes ++ more) (links ++ others) := by
  refine ⟨?_, fun source target => ?_, fun callee caller noted => ?_⟩
  · rw [second.roster, first.roster, List.append_assoc, List.map_append]
  · rw [second.links, first.links, List.mem_append, or_assoc]
  · rw [List.map_append, List.mem_append, ← or_assoc]
    exact (second.noted callee caller noted).imp_left (first.noted callee caller)

theorem congr {others : List (String × String)} (adds : walk.Adds later nodes links)
    (same : ∀ link, link ∈ links ↔ link ∈ others) : walk.Adds later nodes others :=
  ⟨adds.roster, fun source target => by rw [adds.links, same], adds.noted⟩

theorem ids (adds : walk.Adds later nodes links) : later.told.ids = walk.told.ids ++ nodes.map Node.id := by
  rw [Narrative.ids_eq_roster, Narrative.ids_eq_roster, adds.roster, List.map_append, List.map_map]
  rfl

theorem mem_ids (adds : walk.Adds later nodes links) {id : String} (told : id ∈ walk.told.ids) : id ∈ later.told.ids := by
  rw [adds.ids]
  exact List.mem_append_left _ told

theorem linkAll (adds : walk.Adds later nodes links) {sources ends : List String} (same : ∀ id, id ∈ sources ↔ id ∈ ends)
    (present : ∀ id ∈ ends, id ∈ later.told.ids) (target : String) :
    walk.Adds { later with told := later.told.linkAll sources target } nodes
      (links ++ ends.map fun source => (source, target)) := by
  refine ⟨by simpa using adds.roster, fun first second => ?_, adds.noted⟩
  rw [Narrative.linked_linkAll, same, adds.links, List.mem_append, or_assoc]
  refine or_congr_right (or_congr_right ?_)
  simp only [List.mem_map, Prod.mk.injEq]
  constructor
  · intro link
    exact ⟨first, link.1, rfl, link.2.1.symm⟩
  · intro link
    obtain ⟨source, member, rfl, rfl⟩ := link
    exact ⟨member, rfl, present source member⟩

theorem begin (walk : Walk) (node : Node) (caller : Option String) :
    walk.Adds ((walk.tell node.id node).note node caller node.id) [node] [] := by
  refine ⟨by simp, by simp, fun callee other noted => ?_⟩
  rcases noted_note.1 noted with old | ⟨same, _⟩
  · exact Or.inl old
  · exact Or.inr (by simp [same])

end Adds

namespace Plain

theorem empty : ({} : Walk).Plain [] := by
  refine ⟨fun name node member => ?_, fun id inside => ?_, fun callee caller noted => ?_⟩
  · exact absurd member List.not_mem_nil
  · exact absurd inside List.not_mem_nil
  · exact absurd noted List.not_mem_nil

theorem adds (plain : walk.Plain chain) (adds : walk.Adds later nodes links) : later.Plain chain := by
  refine ⟨fun name node member => ?_, fun id inside => ?_, fun callee caller noted => ?_⟩
  · rw [adds.roster, List.mem_append] at member
    rcases member with old | new
    · exact plain.named name node old
    · obtain ⟨_, _, same⟩ := List.mem_map.1 new
      cases same
      rfl
  · rw [adds.ids]
    exact List.mem_append_left _ (plain.opened id inside)
  · rw [adds.ids, List.mem_append]
    exact (adds.noted callee caller noted).imp_left (plain.noted callee caller)

theorem cons (plain : walk.Plain chain) {id : String} (told : id ∈ walk.told.ids) : walk.Plain (id :: chain) :=
  ⟨plain.named, List.forall_mem_cons.2 ⟨told, plain.opened⟩, plain.noted⟩

theorem not_tells (plain : walk.Plain chain) {id : String} (fresh : id ∉ walk.told.ids) : walk.told.tells id = false := by
  rw [Bool.eq_false_iff]
  intro told
  obtain ⟨name, node, member, rfl⟩ := Narrative.tells_iff.1 told
  obtain rfl := plain.named name node member
  exact fresh (Narrative.mem_ids.2 ⟨node, member⟩)

/-- What is not told yet is told under its own id, and its callees are told. -/
theorem visit_eq {graph : Graph} {shared : List String} {node : Node} (plain : walk.Plain chain)
    (found : graph.node? node.id = some node) (fresh : node.id ∉ walk.told.ids) (unshared : node.id ∉ shared) :
    graph.visit shared chain node.id walk =
      (graph.tellCallees (graph.visit shared (node.id :: chain)) node node.id (graph.callees node.id)
        { main := [node.id] } ((walk.tell node.id node).note node chain.head? node.id)).map
        fun result => Graph.finish node node.id (graph.callees node.id) result.1 result.2 := by
  have name : walk.nextId shared node = node.id := by
    have absent : walk.told.contains node.id = false := by
      rw [Bool.eq_false_iff]
      exact fun present => fresh (Narrative.contains_iff.1 present)
    simp [nextId, absent, unshared]
  have closed : node.id ∉ chain := fun inside => fresh (plain.opened node.id inside)
  have unnoted : chain.head?.bind (fun caller => walk.reached.find? (node.id, caller)) = none := by
    rw [Option.bind_eq_none_iff]
    intro caller _
    rw [← Option.not_isSome_iff_eq_none, find?_isSome_iff_noted]
    exact fun noted => fresh (plain.noted node.id caller noted)
  rw [Graph.visit_of_node found, plain.not_tells fresh, name, unnoted, if_neg closed]
  simp only [Bool.and_false, Bool.false_eq_true, if_false]
  cases graph.tellCallees (graph.visit shared (node.id :: chain)) node node.id (graph.callees node.id)
    { main := [node.id] } ((walk.tell node.id node).note node chain.head? node.id) <;> rfl

end Plain

end Walk

namespace Graph

variable {graph : Graph} {shared chain : List String} {tree : CallTree} {parent : Node}

/-- Telling a tree adds its nodes in order and the links of the flow through it, and leaves its ends open. -/
def Conveys (graph : Graph) (shared chain : List String) (tree : CallTree) (walk : Walk) : Prop :=
  ∃ left later, graph.visit shared chain tree.node.id walk = .ok (⟨tree.node.id, some left⟩, later) ∧
    (∀ id, id ∈ left ↔ id ∈ tree.passage.ends) ∧ walk.Adds later tree.nodes tree.passage.links

theorem Unfolds.kind? (unfolds : graph.Unfolds tree) : graph.kind? tree.node.id = some tree.node.kind :=
  kind?_eq_some_iff.2 ⟨tree.node, unfolds.found, rfl⟩

theorem Unfolds.branches_eq (unfolds : graph.Unfolds tree) :
    graph.branches parent tree.node.id = Passage.branches parent tree.passage := by
  simp [Graph.branches, Passage.branches, unfolds.kind?]

theorem Unfolds.closes_eq (unfolds : graph.Unfolds tree) {later : List CallTree}
    (each : ∀ tree ∈ later, graph.Unfolds tree) :
    graph.closes parent tree.node.id (later.map fun tree => tree.node.id) =
      (tree.passage.node.kind = .condition && !decide (parent.kind = .loop) &&
        ((later.map CallTree.passage).filter fun callee => !Passage.branches parent callee).isEmpty) := by
  have rest : (later.map fun tree => tree.node.id).all
      (fun other => parent.kind = .condition && (graph.kind? other).all (· = .conditionElse)) =
      ((later.map CallTree.passage).filter fun callee => !Passage.branches parent callee).isEmpty := by
    rw [Bool.eq_iff_iff, List.all_eq_true, List.isEmpty_iff, List.filter_eq_nil_iff, List.forall_mem_map,
      List.forall_mem_map]
    refine forall₂_congr fun tree inside => ?_
    simp [(each tree inside).kind?, Passage.branches]
  rw [Graph.closes, rest, unfolds.kind?]
  simp

structure Chained (parent : Node) (start : List String) (callees : List Passage) (ends last : Ends) : Prop where
  main : ∀ id, id ∈ last.main ↔
    id ∈ Passage.chainEnds (parent.kind = .loop) start (callees.filter fun callee => !Passage.branches parent callee)
  ran : last.ran = (ends.ran || !(callees.filter fun callee => !Passage.branches parent callee).isEmpty)
  branches : ∀ id, id ∈ last.branches ↔
    id ∈ ends.branches ∨ id ∈ (callees.filter (Passage.branches parent)).flatMap Passage.ends

namespace Chained

variable {start left : List String} {callee : Passage} {later callees : List Passage} {ends last : Ends}

theorem cons_branch (branch : Passage.branches parent callee = true) (ended : ∀ id, id ∈ left ↔ id ∈ callee.ends)
    (chained : Chained parent start later { ends with branches := ends.branches ++ left } last) :
    Chained parent start (callee :: later) ends last := by
  refine ⟨?_, ?_, fun id => ?_⟩
  · simpa [branch] using chained.main
  · simpa [branch] using chained.ran
  · rw [chained.branches]
    simp [branch, ended, or_assoc]

theorem cons_run (run : Passage.branches parent callee = false)
    (chained : Chained parent (callee.following (parent.kind = .loop) start
      (later.filter fun callee => !Passage.branches parent callee)) later { ends with ran := true, main := left } last) :
    Chained parent start (callee :: later) ends last := by
  refine ⟨?_, ?_, ?_⟩
  · simpa [run, Passage.chainEnds] using chained.main
  · simpa [run] using chained.ran
  · simpa [run] using chained.branches

/-- All ends, once the callees of a loop are told. -/
theorem mem_all_loop (kind : parent.kind = .loop)
    (chained : Chained parent [parent.id] callees { main := [parent.id] } last) {id : String} :
    id ∈ last.all ↔ id ∈ Passage.chainEnds true [parent.id] callees := by
  have plain : ∀ callee, Passage.branches parent callee = false := by simp [Passage.branches, kind]
  have none : last.branches = [] := by
    apply List.eq_nil_iff_forall_not_mem.2
    intro id
    rw [chained.branches]
    simp [plain]
  rw [Ends.mem_all, chained.main, none]
  simp [plain, kind]

/-- All ends, once the callees of a node that is not a loop are told. -/
theorem mem_all (kind : parent.kind ≠ .loop) (each : ∀ callee ∈ callees, callee.ends ≠ [])
    (chained : Chained parent [parent.id] callees { main := [parent.id] } last) {id : String} :
    id ∈ last.all ↔ id ∈ (Passage.around parent callees).ends := by
  have branches : ∀ id, id ∈ last.branches ↔ id ∈ (callees.filter (Passage.branches parent)).flatMap Passage.ends := by
    simpa using chained.branches
  have ran : last.ran = true ↔ callees.filter (fun callee => !Passage.branches parent callee) ≠ [] := by
    rw [chained.ran, Bool.false_or, Bool.not_eq_true', ← Bool.not_eq_true, List.isEmpty_iff]
  -- Every branch leaves some end, so no ends means no branch.
  have none : last.branches = [] ↔ callees.filter (Passage.branches parent) = [] := by
    rw [List.eq_nil_iff_forall_not_mem]
    simp only [branches]
    rw [← List.eq_nil_iff_forall_not_mem, List.flatMap_eq_nil_iff]
    constructor
    · intro bare
      apply List.eq_nil_iff_forall_not_mem.2
      intro callee inside
      exact each callee (List.mem_of_mem_filter inside) (bare callee inside)
    · intro nothing callee inside
      simp [nothing] at inside
  rw [Ends.mem_all, Passage.mem_ends_around kind, chained.main, ran, none, branches]
  simp [kind]

end Chained

/-- Telling callees that are trees adds their nodes in order and the links of the flow from one to the next. -/
def ConveysAll (graph : Graph) (shared chain : List String) (parent : Node) (start : List String) (trees : List CallTree)
    (ends : Ends) (walk : Walk) : Prop :=
  ∃ last later, graph.tellCallees (graph.visit shared chain) parent parent.id (trees.map fun tree => tree.node.id) ends walk =
      .ok (last, later) ∧
    Chained parent start (trees.map CallTree.passage) ends last ∧
    walk.Adds later (trees.flatMap CallTree.nodes) (Passage.calleeLinks parent start (trees.map CallTree.passage))

namespace ConveysAll

variable {start left : List String} {later : List CallTree} {ends : Ends} {walk told : Walk}

/-- An ELSE branch is linked from the node, and its ends are kept with those of the other branches. -/
theorem cons_branch (unfolds : graph.Unfolds tree) (branch : Passage.branches parent tree.passage = true)
    (visited : graph.visit shared chain tree.node.id walk = .ok (⟨tree.node.id, some left⟩, told))
    (ended : ∀ id, id ∈ left ↔ id ∈ tree.passage.ends)
    (added : walk.Adds { told with told := told.told.linkAll [parent.id] tree.node.id } tree.nodes
      (tree.passage.links ++ [(parent.id, tree.node.id)]))
    (rest : graph.ConveysAll shared chain parent start later { ends with branches := ends.branches ++ left }
      { told with told := told.told.linkAll [parent.id] tree.node.id }) :
    graph.ConveysAll shared chain parent start (tree :: later) ends walk := by
  obtain ⟨last, final, result, chained, more⟩ := rest
  refine ⟨last, final, ?_, chained.cons_branch branch ended, (added.trans more).congr fun link => ?_⟩
  · rw [List.map_cons, tellCallees, visited]
    simp only [unfolds.branches_eq, branch, if_true]
    exact result
  · rw [List.map_cons, Passage.mem_calleeLinks_branch branch, CallTree.node_passage]

/-- A callee in sequence is linked from the main ends and leaves its own, unless it closes the sequence. -/
theorem cons_run (unfolds : graph.Unfolds tree) (run : Passage.branches parent tree.passage = false)
    (visited : graph.visit shared chain tree.node.id walk = .ok (⟨tree.node.id, some left⟩, told))
    (added : walk.Adds { told with told := told.told.linkAll ends.main tree.node.id } tree.nodes
      (tree.passage.links ++ start.map fun source => (source, tree.node.id)))
    (rest : graph.ConveysAll shared chain parent (tree.passage.following (parent.kind = .loop) start
        ((later.map CallTree.passage).filter fun callee => !Passage.branches parent callee)) later
      { ends with
        ran := true
        main := if graph.closes parent tree.node.id (later.map fun tree => tree.node.id) then ends.main else left }
      { told with told := told.told.linkAll ends.main tree.node.id }) :
    graph.ConveysAll shared chain parent start (tree :: later) ends walk := by
  obtain ⟨last, final, result, chained, more⟩ := rest
  refine ⟨last, final, ?_, chained.cons_run run, (added.trans more).congr fun link => ?_⟩
  · rw [List.map_cons, tellCallees, visited]
    simp only [unfolds.branches_eq, run]
    exact result
  · rw [List.map_cons, Passage.mem_calleeLinks_run run, CallTree.node_passage]

end ConveysAll

/-- The main ends after a callee in sequence are those of the flow. -/
theorem Unfolds.mem_following (unfolds : graph.Unfolds tree) {later : List CallTree}
    (each : ∀ tree ∈ later, graph.Unfolds tree) {main left start : List String}
    (same : ∀ id, id ∈ main ↔ id ∈ start) (ended : ∀ id, id ∈ left ↔ id ∈ tree.passage.ends) (id : String) :
    id ∈ (if graph.closes parent tree.node.id (later.map fun tree => tree.node.id) then main else left) ↔
      id ∈ tree.passage.following (parent.kind = .loop) start
        ((later.map CallTree.passage).filter fun callee => !Passage.branches parent callee) := by
  rw [unfolds.closes_eq each, Passage.following]
  split
  · exact same id
  · exact ended id

/-- Callees that are trees apart are told one after the other. -/
theorem conveysAll_of_each {trees : List CallTree} (each : ∀ tree ∈ trees, graph.Unfolds tree)
    (inner : ∀ tree ∈ trees, ∀ walk : Walk, walk.Plain (parent.id :: chain) →
      (∀ node ∈ tree.nodes, node.id ∉ walk.told.ids) → graph.Conveys shared (parent.id :: chain) tree walk)
    (distinct : ((trees.flatMap CallTree.nodes).map Node.id).Nodup) {walk : Walk} (plain : walk.Plain (parent.id :: chain))
    (fresh : ∀ node ∈ trees.flatMap CallTree.nodes, node.id ∉ walk.told.ids) {ends : Ends} {start : List String}
    (same : ∀ id, id ∈ ends.main ↔ id ∈ start) (present : ∀ id ∈ start, id ∈ walk.told.ids) :
    graph.ConveysAll shared (parent.id :: chain) parent start trees ends walk := by
  -- Along the trees; the ends, the walk and what stands open change with each.
  induction trees generalizing walk ends start with
  | nil =>
    refine ⟨ends, walk, rfl, ⟨same, by simp, by simp⟩, ?_⟩
    exact (Walk.Adds.refl walk).congr (by simp [Passage.calleeLinks, Passage.chainLinks])
  | cons tree later ih =>
    obtain ⟨unfolds, others⟩ := List.forall_mem_cons.1 each
    rw [List.flatMap_cons] at distinct fresh
    rw [List.map_append] at distinct
    obtain ⟨_, apart, disjoint⟩ := List.nodup_append.1 distinct
    obtain ⟨left, told, visited, ended, adds⟩ := inner tree List.mem_cons_self walk plain
      fun node inside => fresh node (List.mem_append_left _ inside)
    -- What comes later is still untold once this tree is.
    have still : ∀ {links} {relinked : Walk}, walk.Adds relinked tree.nodes links →
        ∀ node ∈ later.flatMap CallTree.nodes, node.id ∉ relinked.told.ids := by
      intro links relinked added node inside
      rw [added.ids, List.mem_append, not_or]
      refine ⟨fresh node (List.mem_append_right _ inside), fun again => ?_⟩
      exact disjoint node.id again node.id (List.mem_map_of_mem inside) rfl
    have rest := fun tree inside => inner tree (List.mem_cons_of_mem _ inside)
    cases branch : Passage.branches parent tree.passage with
    | true =>
      have own : ∀ id ∈ [parent.id], id ∈ told.told.ids := by
        intro id member
        rw [List.mem_singleton.1 member]
        exact (plain.adds adds).opened parent.id List.mem_cons_self
      have added := adds.linkAll (fun _ => Iff.rfl) own tree.node.id
      refine .cons_branch unfolds branch visited ended added ?_
      exact ih others rest apart (plain.adds added) (still added) same fun id inside => added.mem_ids (present id inside)
    | false =>
      have added := adds.linkAll same (fun id inside => adds.mem_ids (present id inside)) tree.node.id
      refine .cons_run unfolds branch visited added ?_
      apply ih others rest apart (plain.adds added) (still added) (unfolds.mem_following others same ended)
      intro id inside
      rw [added.ids, List.mem_append]
      rcases Passage.following_eq_or (parent.kind = .loop) start tree.passage
        ((later.map CallTree.passage).filter fun callee => !Passage.branches parent callee) with unchanged | passed
      · exact Or.inl (present id (unchanged ▸ inside))
      · exact Or.inr (List.mem_map.2 (unfolds.mem_ends (passed ▸ inside)))

/-- A node is told with the tree below it once its callees are and what remains is done. -/
private theorem conveys_finish {node : Node} {trees : List CallTree} (below : ∀ tree ∈ trees, graph.Unfolds tree)
    {last : Ends} {walk later : Walk}
    (visited : graph.visit shared chain node.id walk =
      .ok (finish node node.id (trees.map fun tree => tree.node.id) last later))
    (chained : Chained node [node.id] (trees.map CallTree.passage) { main := [node.id] } last)
    (adds : walk.Adds later (node :: trees.flatMap CallTree.nodes)
      (Passage.calleeLinks node [node.id] (trees.map CallTree.passage))) :
    graph.Conveys shared chain (.call node trees) walk := by
  rw [Conveys, CallTree.node, CallTree.nodes_call, CallTree.passage_call, visited, finish]
  by_cases kind : node.kind = .loop
  · rw [if_pos kind, Passage.ends_around_loop kind]
    refine ⟨[node.id], _, rfl, fun _ => Iff.rfl, ?_⟩
    split
    · next none => exact adds.congr fun link => by simp [Passage.mem_links_around, List.map_eq_nil_iff.1 none]
    · next some =>
      have present : ∀ id ∈ Passage.chainEnds true [node.id] (trees.map CallTree.passage), id ∈ later.told.ids := by
        intro id member
        have place := (Passage.mem_chainEnds member).imp_left List.mem_singleton.1
        have inside := Unfolds.exists_node (fun tree inside => (below tree inside).mem_ends) place
        rw [CallTree.nodes_call] at inside
        rw [adds.ids]
        exact List.mem_append_right _ (List.mem_map.2 inside)
      refine (adds.linkAll (fun _ => chained.mem_all_loop kind) present node.id).congr fun link => ?_
      rw [Passage.mem_links_around, List.mem_append]
      simp [kind, List.map_eq_nil_iff.not.1 some]
  · rw [if_neg kind]
    refine ⟨last.all, later, rfl, fun id => ?_, ?_⟩
    · exact chained.mem_all kind (List.forall_mem_map.2 fun tree inside => (below tree inside).ends_ne_nil)
    · exact adds.congr fun link => by simp [Passage.mem_links_around, kind]

/-- A tree of nodes that are not told yet is told as a whole. -/
theorem Unfolds.conveys (unfolds : graph.Unfolds tree) (distinct : (tree.nodes.map Node.id).Nodup)
    (unshared : ∀ node ∈ tree.nodes, node.id ∉ shared) {walk : Walk} (plain : walk.Plain chain)
    (fresh : ∀ node ∈ tree.nodes, node.id ∉ walk.told.ids) : graph.Conveys shared chain tree walk := by
  induction unfolds generalizing chain walk with
  | @call node callees found listed below ih =>
    rw [CallTree.nodes_call] at distinct unshared fresh
    rw [List.map_cons, List.nodup_cons] at distinct
    obtain ⟨new, others⟩ := List.forall_mem_cons.1 fresh
    obtain ⟨single, rest⟩ := List.forall_mem_cons.1 unshared
    have begun := Walk.Adds.begin walk node chain.head?
    have own : ∀ id ∈ [node.id], id ∈ ((walk.tell node.id node).note node chain.head? node.id).told.ids := by
      intro id member
      rw [begun.ids]
      exact List.mem_append_right _ member
    have ahead : ∀ other ∈ callees.flatMap CallTree.nodes,
        other.id ∉ ((walk.tell node.id node).note node chain.head? node.id).told.ids := by
      intro other inside
      rw [begun.ids, List.mem_append, not_or]
      refine ⟨others other inside, fun same => distinct.1 ?_⟩
      rw [← List.mem_singleton.1 same]
      exact List.mem_map_of_mem inside
    have inner : ∀ tree ∈ callees, ∀ walk : Walk, walk.Plain (node.id :: chain) →
        (∀ node ∈ tree.nodes, node.id ∉ walk.told.ids) → graph.Conveys shared (node.id :: chain) tree walk := by
      intro tree inside walk plain fresh
      have unique := distinct.2
      rw [List.map_flatMap] at unique
      exact ih tree inside ((List.nodup_flatMap.1 unique).1 tree inside)
        (fun node member => rest node (List.mem_flatMap.2 ⟨tree, inside, member⟩)) plain fresh
    have alone : ∀ id, id ∈ ({ main := [node.id] } : Ends).main ↔ id ∈ [node.id] := fun _ => Iff.rfl
    obtain ⟨last, later, told, chained, adds⟩ := conveysAll_of_each below inner distinct.2
      ((plain.adds begun).cons (own node.id (List.mem_singleton.2 rfl))) ahead alone own
    have visited := plain.visit_eq found new single
    rw [listed, told] at visited
    exact conveys_finish below visited chained (begun.trans adds)

/-- Where each node behind the start node has one caller, a checked graph is told as the one tree of its calls: each node
once, under its own id and in the order of the tree, with the links of the flow through the tree. -/
theorem narrate_tree (built : graph.Built) (checked : graph.check = .ok ())
    (alone : ∀ entry, graph.entry? = some entry → ∀ id, graph.Reaches entry.id id → id ≠ entry.id →
      (graph.callers id).length = 1) :
    ∃ narrative entry tree, graph.narrate = .ok narrative ∧ graph.entry? = some entry ∧
      (∀ other, graph.Unfolds other ∧ other.node = entry ↔ other = tree) ∧
      (narrative.occurrences.map fun occurrence => (occurrence.id, occurrence.node)) =
        (tree.nodes.map fun node => (node.id, node)) ∧
      narrative.ids.Nodup ∧ (∀ id, id ∈ narrative.ids ↔ graph.Reaches entry.id id) ∧
      ∀ occurrence ∈ narrative.occurrences, ∀ target,
        target ∈ occurrence.next ↔ (occurrence.id, target) ∈ tree.passage.links := by
  have valid := check_eq_ok_iff.1 checked
  obtain ⟨entry, first, _⟩ := valid.entry
  have treelike := valid.treelike built.consistent first (alone entry first)
  obtain ⟨tree, unfolds, root⟩ := treelike.exists_unfolds
  obtain rfl : tree.node = entry :=
    Option.some.inj ((root ▸ unfolds.found).symm.trans (built.consistent.entry?_node? first).1)
  have distinct := treelike.nodup_nodes unfolds .refl
  obtain ⟨left, walk, visited, _, adds⟩ := unfolds.conveys distinct
    (fun node inside => treelike.not_mem_shared (unfolds.reaches_iff.2 ⟨node, inside, rfl⟩)) .empty
    fun _ _ => List.not_mem_nil
  have ids : walk.told.ids = tree.nodes.map Node.id := adds.ids
  have unique : walk.told.ids.Nodup := ids ▸ distinct
  refine ⟨walk.told, tree.node, tree, ?_, first, fun other => ?_, adds.roster, unique, fun id => ?_, ?_⟩
  · simp [Graph.narrate, first, visited, Except.map]
  · constructor
    · intro both
      exact both.1.unique unfolds (congrArg Node.id both.2)
    · intro same
      rw [same]
      exact ⟨unfolds, rfl⟩
  · rw [ids, unfolds.reaches_iff, List.mem_map]
  · intro occurrence member target
    have links : walk.told.Linked occurrence.id target ↔ (occurrence.id, target) ∈ tree.passage.links := by
      rw [adds.links]
      apply or_iff_right
      intro link
      obtain ⟨other, inside, _⟩ := link
      exact absurd inside List.not_mem_nil
    rw [← links]
    constructor
    · exact fun follows => ⟨occurrence, member, rfl, follows⟩
    · intro link
      obtain ⟨other, inside, same, follows⟩ := link
      rw [← List.inj_on_of_nodup_map unique inside member same]
      exact follows

/-- A condition with an ELSE branch, a loop whose body ends with a condition, and a condition that ends the program. -/
def branching : GraphDoc := ⟨[
  .brief "MAIN" .start [] ["IF", "LOOP", "CHECK"],
  .brief "IF" .condition ["MAIN"] ["OPEN", "ELSE"],
  .brief "OPEN" .normal ["IF"] [],
  .brief "ELSE" .conditionElse ["IF"] [],
  .brief "LOOP" .loop ["MAIN"] ["TEST"],
  .brief "TEST" .condition ["LOOP"] ["SAVE"],
  .brief "SAVE" .normal ["TEST"] [],
  .brief "CHECK" .condition ["MAIN"] []]⟩

theorem branching_tree :
    ∃ graph narrative tree, branching.toGraph = .ok graph ∧ graph.Built ∧ graph.check = .ok () ∧
      (∀ entry, graph.entry? = some entry → ∀ id, graph.Reaches entry.id id → id ≠ entry.id →
        (graph.callers id).length = 1) ∧
      graph.narrate = .ok narrative ∧ graph.Unfolds tree ∧ tree.node.id = "MAIN" ∧
      (narrative.occurrences.map fun occurrence => (occurrence.id, occurrence.node)) =
        (tree.nodes.map fun node => (node.id, node)) ∧
      (∀ occurrence ∈ narrative.occurrences, ∀ target,
        target ∈ occurrence.next ↔ (occurrence.id, target) ∈ tree.passage.links) ∧
      (narrative.occurrences.map fun occurrence => (occurrence.id, occurrence.next.toList)) =
        [("MAIN", ["IF"]), ("IF", ["OPEN", "ELSE"]), ("OPEN", ["LOOP"]), ("ELSE", ["LOOP"]), ("LOOP", ["TEST", "CHECK"]),
          ("TEST", ["SAVE"]), ("SAVE", ["LOOP"]), ("CHECK", [])] := by
  obtain ⟨graph, read⟩ : ∃ graph, branching.toGraph = .ok graph := ⟨_, rfl⟩
  obtain ⟨built, checked⟩ := GraphDoc.built_toGraph read
  have counts : branching.toGraph.map (fun graph => (graph.entry?.map Node.id, graph.ids.all fun id =>
      id = "MAIN" || (graph.callers id).length = 1)) = .ok (some "MAIN", true) := rfl
  have shown : (branching.toGraph.bind Graph.narrate).map (fun narrative => narrative.occurrences.map
      fun occurrence => (occurrence.id, occurrence.next.toList)) =
      .ok [("MAIN", ["IF"]), ("IF", ["OPEN", "ELSE"]), ("OPEN", ["LOOP"]), ("ELSE", ["LOOP"]), ("LOOP", ["TEST", "CHECK"]),
        ("TEST", ["SAVE"]), ("SAVE", ["LOOP"]), ("CHECK", [])] := by cbv
  simp only [read, Except.map, Except.ok.injEq, Prod.mk.injEq] at counts
  obtain ⟨named, counts⟩ := counts
  have alone : ∀ entry, graph.entry? = some entry → ∀ id, graph.Reaches entry.id id → id ≠ entry.id →
      (graph.callers id).length = 1 := by
    intro entry first id path other
    rw [first, Option.map_some, Option.some.injEq] at named
    have known := (check_eq_ok_iff.1 checked).contains_of_reaches (contains_entry first) path
    have counted := List.all_eq_true.1 counts id (contains_iff_mem_ids.1 known)
    rw [named] at other
    simpa [other] using counted
  obtain ⟨narrative, entry, tree, told, first, only, roster, _, _, links⟩ := narrate_tree built checked alone
  obtain ⟨unfolds, rfl⟩ := (only tree).2 rfl
  rw [first, Option.map_some, Option.some.injEq] at named
  simp only [read, told, Except.map, Except.bind, Except.ok.injEq] at shown
  exact ⟨graph, narrative, tree, read, built, checked, alone, told, unfolds, named, roster, links, shown⟩

end Graph

end CallChart
