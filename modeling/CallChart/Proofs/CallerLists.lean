import Mathlib.Data.List.Permutation
import CallChart.Callers
import CallChart.Graph.Check
import CallChart.Proofs.Histories

/-! The callers listed for a line of the program text. Which node stands for a caller is a relation of its
own: going up from an id, each loop gives way to its first caller, and a climb that comes back to a loop
never ends at a node. The list holds the nodes where the climbs from the target's direct callers end. -/

namespace CallChart

namespace Graph

variable {graph : Graph}

def Encloses (graph : Graph) (line : Line) (node : Node) : Prop :=
  node ∈ graph.nodes ∧ (node.kind = .normal ∨ node.kind = .start) ∧ node.firstLine ≤ line ∧ line ≤ node.lastLine

/-- The enclosing node of least extent, and the first added of those. -/
structure Innermost (graph : Graph) (line : Line) (target : Node) : Prop where
  encloses : graph.Encloses line target
  least : ∃ before after, graph.nodes = before ++ target :: after ∧
    (∀ other ∈ before, graph.Encloses line other → extent target < extent other) ∧
    ∀ other ∈ after, graph.Encloses line other → extent target ≤ extent other

/-- Going up from an id, where each loop gives way to its first caller, meets a node that is no loop after
some number of loops. -/
inductive Climbs (graph : Graph) : String → Nat → Node → Prop where
  | plain {id : String} {node : Node} (found : graph.node? id = some node) (plain : node.kind ≠ .loop) :
    Climbs graph id 0 node
  | loop {id caller : String} {header node : Node} {loops : Nat} (found : graph.node? id = some header)
    (loop : header.kind = .loop) (first : (graph.callers id).head? = some caller)
    (above : Climbs graph caller loops node) : Climbs graph id (loops + 1) node

def StandsFor (graph : Graph) (node : Node) (id : String) : Prop := ∃ loops, graph.Climbs id loops node

/-- The first id calls the second itself or by way of loops only. -/
inductive CallsThroughLoops (graph : Graph) (source : String) : String → Prop where
  | direct {target : String} (call : graph.Calls source target) : CallsThroughLoops graph source target
  | loop {header target : String} (above : CallsThroughLoops graph source header)
    (loop : graph.kind? header = some .loop) (call : graph.Calls header target) :
    CallsThroughLoops graph source target

/-- The callers of a target are the nodes that stand for its direct callers, each once and in the order in
which the direct callers come to them. -/
structure Listing (graph : Graph) (target : Node) (callers : List Caller) : Prop where
  distinct : (callers.map fun caller => caller.node.id).Nodup
  plain : ∀ caller ∈ callers, graph.node? caller.node.id = some caller.node ∧ caller.node.kind ≠ .loop
  calling : ∀ caller ∈ callers, graph.CallsThroughLoops caller.node.id target.id
  complete : ∀ node, node ∈ callers.map Caller.node ↔ ∃ id ∈ graph.callers target.id, graph.StandsFor node id
  ordered : callers.Pairwise fun earlier later =>
    ∀ done id rest, graph.callers target.id = done ++ id :: rest → graph.StandsFor later.node id →
      ∃ other ∈ done, graph.StandsFor earlier.node other

theorem mem_enclosing {line : Line} {node : Node} : node ∈ graph.enclosing line ↔ graph.Encloses line node := by
  simp [enclosing, Encloses, Node.encloses]

theorem Encloses.extent_add {line : Line} {node : Node} (encloses : graph.Encloses line node) :
    (extent node).toNat + node.firstLine.toNat = node.lastLine.toNat := by
  have order : node.firstLine ≤ node.lastLine := UInt64.le_trans encloses.2.2.1 encloses.2.2.2
  have below := UInt64.le_iff_toNat_le.1 order
  rw [extent, UInt64.toNat_sub_of_le _ _ order]
  omega

theorem innermost?_eq_none_iff {nodes : List Node} : innermost? nodes = none ↔ nodes = [] := by
  cases nodes with
  | nil => exact iff_of_true rfl rfl
  | cons first rest =>
    refine iff_of_false (fun none => ?_) nofun
    unfold innermost? at none
    split at none
    · cases none
    · split at none <;> cases none

/-- What stands in front of the innermost node is strictly larger, and what follows is no smaller. -/
theorem innermost?_split {nodes : List Node} {node : Node} (found : innermost? nodes = some node) :
    ∃ before after, nodes = before ++ node :: after ∧
      (∀ other ∈ before, extent node < extent other) ∧ ∀ other ∈ after, extent node ≤ extent other := by
  induction nodes generalizing node with
  | nil => cases found
  | cons first rest ih =>
    unfold innermost? at found
    split at found
    · next empty =>
      cases found
      cases innermost?_eq_none_iff.1 empty
      exact ⟨[], [], rfl, nofun, nofun⟩
    · next other among =>
      obtain ⟨before, after, split, smaller, least⟩ := ih among
      split at found
      · next below =>
        cases found
        refine ⟨first :: before, after, congrArg _ split, ?_, least⟩
        exact List.forall_mem_cons.2 ⟨below, smaller⟩
      · next notBelow =>
        cases found
        have first_le : extent first ≤ extent other := UInt64.not_lt.1 notBelow
        refine ⟨[], rest, rfl, nofun, fun later member => ?_⟩
        apply UInt64.le_trans first_le
        rw [split] at member
        rcases List.mem_append.1 member with inFront | behind
        · exact UInt64.le_of_lt (smaller later inFront)
        · rcases List.mem_cons.1 behind with rfl | inBack
          · exact UInt64.le_refl _
          · exact least later inBack

theorem innermost_of_found {line : Line} {target : Node} (found : innermost? (graph.enclosing line) = some target) :
    graph.Innermost line target := by
  obtain ⟨before, after, split, smaller, least⟩ := innermost?_split found
  obtain ⟨front, back, nodes, rfl, cut⟩ := List.filter_eq_append_iff.1 split
  obtain ⟨outside, rest, rfl, excluded, holds, rfl⟩ := List.filter_eq_cons_iff.1 cut
  refine ⟨?_, front ++ outside, rest, ?_, ?_, ?_⟩
  · rw [← mem_enclosing, split]
    exact List.mem_append_right _ List.mem_cons_self
  · rw [nodes, List.append_assoc]
  · intro other member encloses
    have kept := (List.mem_filter.1 (mem_enclosing.2 encloses)).2
    rcases List.mem_append.1 member with inFront | inOutside
    · exact smaller other (List.mem_filter.2 ⟨inFront, kept⟩)
    · exact absurd kept (excluded other inOutside)
  · intro other member encloses
    exact least other (List.mem_filter.2 ⟨member, (List.mem_filter.1 (mem_enclosing.2 encloses)).2⟩)

section Climbing

variable {id : String} {node other : Node} {loops : Nat}

theorem Climbs.unique {others : Nat} (climbs : graph.Climbs id loops node) (again : graph.Climbs id others other) :
    loops = others ∧ node = other := by
  induction climbs generalizing others with
  | plain found plain =>
    cases again with
    | plain here _ => exact ⟨rfl, Option.some.inj (found.symm.trans here)⟩
    | loop here loop =>
      cases found.symm.trans here
      exact absurd loop plain
  | loop found loop first _ ih =>
    cases again with
    | plain here plain =>
      cases found.symm.trans here
      exact absurd loop plain
    | loop _ _ head above =>
      cases first.symm.trans head
      obtain ⟨rfl, same⟩ := ih above
      exact ⟨rfl, same⟩

theorem Climbs.end_plain (climbs : graph.Climbs id loops node) :
    graph.node? node.id = some node ∧ node.kind ≠ .loop := by
  induction climbs with
  | plain found plain =>
    rw [(node?_some found).2]
    exact ⟨found, plain⟩
  | loop _ _ _ _ ih => exact ih

theorem climbs_of_standIn? {passed : List String} (found : graph.standIn? passed id = some node) :
    ∃ loops, graph.Climbs id loops node := by
  fun_induction standIn? graph passed id with
  | case1 => cases found
  | case2 passed id header here plain =>
    cases found
    exact ⟨0, .plain here plain⟩
  | case3 => cases found
  | case4 => cases found
  | case5 passed id header here loop _ caller first ih =>
    obtain ⟨loops, above⟩ := ih found
    exact ⟨loops + 1, .loop here (not_not.1 loop) first above⟩

/-- A climb that ends does not come by the same loop twice: the loops passed on the way have more loops
before them than the id where the climb has got to. -/
theorem standIn?_of_climbs {passed : List String} (climbs : graph.Climbs id loops node)
    (below : ∀ other ∈ passed, ∃ more, loops < more ∧ graph.Climbs other more node) :
    graph.standIn? passed id = some node := by
  induction climbs generalizing passed with
  | plain found plain => rw [standIn?_some found, if_pos plain]
  | @loop id caller header node loops found loop first above ih =>
    have whole : graph.Climbs id (loops + 1) node := .loop found loop first above
    have fresh : id ∉ passed := by
      intro known
      obtain ⟨more, fewer, again⟩ := below id known
      have equal := (whole.unique again).1
      omega
    rw [standIn?_some found, if_neg (not_not.2 loop), if_neg fresh, first]
    apply ih
    intro other member
    rcases List.mem_cons.1 member with rfl | earlier
    · exact ⟨loops + 1, Nat.lt_succ_self loops, whole⟩
    · obtain ⟨more, fewer, again⟩ := below other earlier
      exact ⟨more, by omega, again⟩

theorem standIn?_eq_some_iff : graph.standIn? [] id = some node ↔ graph.StandsFor node id := by
  constructor
  · exact climbs_of_standIn?
  · intro stands
    obtain ⟨loops, climbs⟩ := stands
    exact standIn?_of_climbs climbs nofun

theorem StandsFor.plain (stands : graph.StandsFor node id) :
    graph.node? node.id = some node ∧ node.kind ≠ .loop := by
  obtain ⟨_, climbs⟩ := stands
  exact climbs.end_plain

/-- Nodes that stand for callers are told apart by their ids. -/
theorem StandsFor.eq_of_id {caller : String} (stands : graph.StandsFor node id)
    (also : graph.StandsFor other caller) (same : node.id = other.id) : node = other := by
  have found := stands.plain.1
  rw [same, also.plain.1] at found
  exact (Option.some.inj found).symm

theorem Consistent.callsThroughLoops (consistent : graph.Consistent) (climbs : graph.Climbs id loops node)
    {target : String} (caller : id ∈ graph.callers target) : graph.CallsThroughLoops node.id target := by
  induction climbs generalizing target with
  | plain found _ =>
    have named := (node?_some found).2
    apply CallsThroughLoops.direct
    rw [named, consistent.calls_iff_mem_callers]
    exact ⟨contains_iff.2 ⟨_, found⟩, caller⟩
  | loop found loop first _ ih =>
    refine .loop (ih (List.mem_of_mem_head? first)) (by rw [kind?, found, Option.map_some, loop]) ?_
    rw [consistent.calls_iff_mem_callers]
    exact ⟨contains_iff.2 ⟨_, found⟩, caller⟩

end Climbing

section Listing

variable {target node : Node} {ids : List String} {id : String}

def resolved (graph : Graph) (ids : List String) : List (String × Node) :=
  ids.filterMap fun id => (graph.standIn? [] id).map (id, ·)

theorem callersOf_eq_map_resolved : graph.callersOf target =
    (distinctOn (fun pair : String × Node => pair.2.id) [] (graph.resolved (graph.callers target.id))).map
      fun pair => { node := pair.2, line := invocationLine target pair.1 pair.2 } := rfl

theorem mem_resolved : (id, node) ∈ graph.resolved ids ↔ id ∈ ids ∧ graph.StandsFor node id := by
  simp [resolved, standIn?_eq_some_iff]

theorem resolved_split {done rest : List String} (stands : graph.StandsFor node id) :
    graph.resolved (done ++ id :: rest) = graph.resolved done ++ (id, node) :: graph.resolved rest := by
  simp [resolved, standIn?_eq_some_iff.2 stands]

theorem exists_split_of_resolved {front back : List (String × Node)}
    (split : graph.resolved ids = front ++ (id, node) :: back) :
    ∃ done rest, ids = done ++ id :: rest ∧ graph.resolved done = front := by
  obtain ⟨done, later, rfl, front_eq, cut⟩ := List.filterMap_eq_append_iff.1 split
  obtain ⟨lost, other, rest, rfl, unresolved, here, _⟩ := List.filterMap_eq_cons_iff.1 cut
  obtain ⟨_, _, same⟩ := Option.map_eq_some_iff.1 here
  cases same
  refine ⟨done ++ lost, rest, by rw [List.append_assoc], ?_⟩
  rw [resolved, List.filterMap_append, front_eq, List.filterMap_eq_nil_iff.2 unresolved, List.append_nil]

/-- A caller is listed for the first direct caller that it stands for. -/
theorem exists_first_of_mem_callersOf {caller : Caller} (listed : caller ∈ graph.callersOf target) :
    ∃ done id rest, graph.callers target.id = done ++ id :: rest ∧ graph.StandsFor caller.node id ∧
      (∀ earlier ∈ done, ¬ graph.StandsFor caller.node earlier) ∧
      caller.line = invocationLine target id caller.node := by
  rw [callersOf_eq_map_resolved] at listed
  obtain ⟨⟨id, node⟩, kept, rfl⟩ := List.mem_map.1 listed
  have stands := (mem_resolved.1 (mem_of_mem_distinctOn kept)).2
  obtain ⟨front, back, split, fresh⟩ := exists_first_of_mem_distinctOn kept
  obtain ⟨done, rest, ids_eq, rfl⟩ := exists_split_of_resolved split
  refine ⟨done, id, rest, ids_eq, stands, fun earlier member again => ?_, rfl⟩
  exact fresh (earlier, node) (mem_resolved.2 ⟨member, again⟩) rfl

theorem mem_map_node_callersOf : node ∈ (graph.callersOf target).map Caller.node ↔
    ∃ id ∈ graph.callers target.id, graph.StandsFor node id := by
  constructor
  · intro listed
    obtain ⟨caller, member, rfl⟩ := List.mem_map.1 listed
    obtain ⟨done, id, rest, ids_eq, stands, _⟩ := exists_first_of_mem_callersOf member
    refine ⟨id, ?_, stands⟩
    rw [ids_eq]
    exact List.mem_append_right _ List.mem_cons_self
  · rintro ⟨id, member, stands⟩
    have key : node.id ∈ (graph.resolved (graph.callers target.id)).map fun pair => pair.2.id :=
      List.mem_map.2 ⟨(id, node), mem_resolved.2 ⟨member, stands⟩, rfl⟩
    obtain ⟨pair, kept, same⟩ := List.mem_map.1 (mem_keys_distinctOn.2 ⟨key, List.not_mem_nil⟩)
    have also := (mem_resolved.1 (mem_of_mem_distinctOn kept)).2
    rw [callersOf_eq_map_resolved, List.map_map]
    exact List.mem_map.2 ⟨pair, kept, also.eq_of_id stands same⟩

theorem pairwise_callersOf : (graph.callersOf target).Pairwise fun earlier later =>
    ∀ done id rest, graph.callers target.id = done ++ id :: rest → graph.StandsFor later.node id →
      ∃ other ∈ done, graph.StandsFor earlier.node other := by
  rw [callersOf_eq_map_resolved, List.pairwise_map]
  refine pairwise_distinctOn.imp_of_mem fun {earlier later} kept _ order done id rest ids_eq stands => ?_
  rw [ids_eq, resolved_split stands] at order
  obtain ⟨⟨other, standIn⟩, member, same⟩ := order _ _ _ rfl rfl
  obtain ⟨inside, also⟩ := mem_resolved.1 member
  have earlier_stands := (mem_resolved.1 (mem_of_mem_distinctOn kept)).2
  rw [← also.eq_of_id earlier_stands same]
  exact ⟨other, inside, also⟩

theorem Consistent.listing (consistent : graph.Consistent) (target : Node) :
    graph.Listing target (graph.callersOf target) := by
  have resolves : ∀ caller ∈ graph.callersOf target,
      ∃ id ∈ graph.callers target.id, graph.StandsFor caller.node id :=
    fun caller listed => mem_map_node_callersOf.1 (List.mem_map_of_mem listed)
  refine ⟨?_, ?_, ?_, fun node => mem_map_node_callersOf, pairwise_callersOf⟩
  · rw [callersOf_eq_map_resolved, List.map_map]
    exact nodup_keys_distinctOn
  · intro caller listed
    obtain ⟨_, _, stands⟩ := resolves caller listed
    exact stands.plain
  · intro caller listed
    obtain ⟨id, member, _, climbs⟩ := resolves caller listed
    exact consistent.callsThroughLoops climbs member

end Listing

theorem callersAt?_eq_none_iff {line : Line} :
    graph.callersAt? line = none ↔ ∀ node, ¬ graph.Encloses line node := by
  rw [callersAt?, Option.map_eq_none_iff, innermost?_eq_none_iff, List.eq_nil_iff_forall_not_mem]
  exact forall_congr' fun node => not_congr mem_enclosing

/-- A line has callers listed just when a paragraph or start node is around it: those of the innermost. -/
theorem caller_lists_exact (built : graph.Built) (line : Line) :
    (graph.callersAt? line = none ↔ ∀ node, ¬ graph.Encloses line node) ∧
      (∀ node, graph.Encloses line node → (extent node).toNat + node.firstLine.toNat = node.lastLine.toNat) ∧
      ∀ list, graph.callersAt? line = some list →
        graph.Innermost line list.target ∧ graph.Listing list.target list.callers := by
  refine ⟨callersAt?_eq_none_iff, fun node encloses => encloses.extent_add, fun list found => ?_⟩
  obtain ⟨target, innermost, rfl⟩ := Option.map_eq_some_iff.1 found
  exact ⟨innermost_of_found innermost, built.consistent.listing target⟩

/-- Text in layers: `READ` and `COPY` are of equal length around the line 15. Of the callers of `READ`, the loop `SPIN`
calls only itself above, `OLD` is no node, and `MAIN` stands for the loop `LOOP` before it calls on its own. -/
def layered : Graph := edited [
  .add { id := "MAIN", label := "MAIN", kind := .start, firstLine := 1, lastLine := 90 },
  .add { id := "READ", label := "READ", kind := .normal, firstLine := 10, lastLine := 20 },
  .add { id := "COPY", label := "COPY", kind := .normal, firstLine := 12, lastLine := 22 },
  .add { id := "BACK", label := "BACK", kind := .normal, firstLine := 16, lastLine := 14 },
  .add { id := "LOOP", label := "LOOP", kind := .loop, firstLine := 15, lastLine := 15 },
  .add { id := "SPIN", label := "SPIN", kind := .loop, firstLine := 30, lastLine := 31 },
  .link "SPIN" "SPIN", .link "MAIN" "LOOP", .link "COPY" "LOOP", .link "SPIN" "READ", .link "OLD" "READ",
  .link "LOOP" "READ", .link "COPY" "READ", .link "MAIN" "READ"]

theorem layered_exact : ∃ list, layered.callersAt? 15 = some list ∧ list.target.id = "READ" ∧
    list.callers.map (fun caller => caller.node.id) = ["MAIN", "COPY"] ∧
    layered.Innermost 15 list.target ∧ layered.Listing list.target list.callers := by
  have value : (layered.callersAt? 15).map (fun list =>
      (list.target.id, list.callers.map fun caller => caller.node.id)) = some ("READ", ["MAIN", "COPY"]) := by cbv
  obtain ⟨list, found, same⟩ := Option.map_eq_some_iff.1 value
  obtain ⟨target, callers⟩ := Prod.mk.inj same
  exact ⟨list, found, target, callers, (caller_lists_exact (built_edited _) 15).2.2 list found⟩

section Lines

variable {target node : Node}

def RecordedLine (graph : Graph) (target node : Node) (line : Line) : Prop :=
  ∃ id ∈ graph.callers target.id, graph.StandsFor node id ∧ target.invocations.find? id = some line

/-- The line of a caller is the least one recorded for it. Where none is, it is the one recorded for its own id or
else its first line. -/
def EarliestLine (graph : Graph) (target : Node) (caller : Caller) : Prop :=
  (graph.RecordedLine target caller.node caller.line ∧
    ∀ line, graph.RecordedLine target caller.node line → caller.line ≤ line) ∨
  ((∀ line, ¬ graph.RecordedLine target caller.node line) ∧
    caller.line = (target.invocations.find? caller.node.id).getD caller.node.firstLine)

theorem recordedLine_iff {done rest : List String} {id : String} (ids_eq : graph.callers target.id = done ++ id :: rest)
    (stands : graph.StandsFor node id) (fresh : ∀ earlier ∈ done, ¬ graph.StandsFor node earlier) (line : Line) :
    graph.RecordedLine target node line ↔ target.invocations.find? id = some line ∨
      ∃ later ∈ rest, graph.StandsFor node later ∧ target.invocations.find? later = some line := by
  rw [RecordedLine, ids_eq]
  constructor
  · rintro ⟨other, member, also, recorded⟩
    rcases List.mem_append.1 member with before | behind
    · exact absurd also (fresh other before)
    · rcases List.mem_cons.1 behind with rfl | later
      · exact .inl recorded
      · exact .inr ⟨other, later, also, recorded⟩
  · rintro (recorded | ⟨other, later, also, recorded⟩)
    · exact ⟨id, List.mem_append_right _ List.mem_cons_self, stands, recorded⟩
    · exact ⟨other, List.mem_append_right _ (List.mem_cons_of_mem _ later), also, recorded⟩

/-- The line of a caller comes from the first direct caller that it stands for, and the other ones are not asked. It
is the earliest if that one has a line and no later one has a lesser, or if no later one has any. -/
theorem caller_line_of_first {line : Line} {list : CallerList} {caller : Caller}
    (found : graph.callersAt? line = some list) (listed : caller ∈ list.callers) :
    ∃ done id rest, graph.callers list.target.id = done ++ id :: rest ∧ graph.StandsFor caller.node id ∧
      (∀ earlier ∈ done, ¬ graph.StandsFor caller.node earlier) ∧
      caller.line = ((list.target.invocations.find? id).or
        (list.target.invocations.find? caller.node.id)).getD caller.node.firstLine ∧
      (∀ first, list.target.invocations.find? id = some first → (graph.EarliestLine list.target caller ↔
        ∀ later ∈ rest, graph.StandsFor caller.node later →
          ∀ recorded, list.target.invocations.find? later = some recorded → first ≤ recorded)) ∧
      ((∀ later ∈ rest, graph.StandsFor caller.node later → list.target.invocations.find? later = none) →
        graph.EarliestLine list.target caller) := by
  obtain ⟨target, _, rfl⟩ := Option.map_eq_some_iff.1 found
  obtain ⟨done, id, rest, ids_eq, stands, fresh, line_eq⟩ := exists_first_of_mem_callersOf listed
  rw [invocationLine] at line_eq
  have recorded_iff := recordedLine_iff ids_eq stands fresh
  have earliest_iff : ∀ first, target.invocations.find? id = some first → (graph.EarliestLine target caller ↔
      ∀ later ∈ rest, graph.StandsFor caller.node later →
        ∀ recorded, target.invocations.find? later = some recorded → first ≤ recorded) := by
    intro first here
    have line_first : caller.line = first := by rw [line_eq, here]; rfl
    have own : graph.RecordedLine target caller.node first := (recorded_iff first).2 (.inl here)
    rw [EarliestLine, line_first]
    constructor
    · intro earliest later member also recorded there
      rcases earliest with ⟨_, least⟩ | ⟨nowhere, _⟩
      · exact least recorded ((recorded_iff recorded).2 (.inr ⟨later, member, also, there⟩))
      · exact absurd own (nowhere first)
    · intro least
      refine .inl ⟨own, fun line recorded => ?_⟩
      rcases (recorded_iff line).1 recorded with same | ⟨later, member, also, there⟩
      · cases here.symm.trans same
        exact UInt64.le_refl _
      · exact least later member also line there
  refine ⟨done, id, rest, ids_eq, stands, fresh, line_eq, earliest_iff, fun silent => ?_⟩
  cases here : target.invocations.find? id with
  | some first =>
    refine (earliest_iff first here).2 fun later member also recorded there => ?_
    cases (silent later member also).symm.trans there
  | none =>
    refine .inr ⟨fun line recorded => ?_, by rw [line_eq, here, Option.none_or]⟩
    rcases (recorded_iff line).1 recorded with same | ⟨later, member, also, there⟩
    · cases here.symm.trans same
    · cases (silent later member also).symm.trans there

end Lines

def reading : Node := { id := "READ", label := "READ", kind := .normal, firstLine := 10, lastLine := 25 }

def storing : Node :=
  { id := "SAVE", label := "SAVE", kind := .normal, firstLine := 40, lastLine := 45,
    invocations := .ofList [("SCAN", 17)] }

/-- `READ` calls `SAVE` from two loops, of which the second has a line recorded. -/
def saving (calls : List Edit) : Graph := edited ([
  .add { id := "MAIN", label := "MAIN", kind := .start, firstLine := 1, lastLine := 9 }, .add reading,
  .add { id := "LOOP", label := "LOOP", kind := .loop, firstLine := 12, lastLine := 14 },
  .add { id := "SCAN", label := "SCAN", kind := .loop, firstLine := 16, lastLine := 18 }, .add storing,
  .link "MAIN" "READ", .link "READ" "LOOP", .link "READ" "SCAN"] ++ calls)

def scanFirst : Graph := saving [.link "SCAN" "SAVE", .link "LOOP" "SAVE"]

def loopFirst : Graph := saving [.link "LOOP" "SAVE", .link "SCAN" "SAVE"]

theorem scanFirst_line : scanFirst.callersAt? 42 = some ⟨storing, [⟨reading, 17⟩]⟩ ∧
    scanFirst.EarliestLine storing ⟨reading, 17⟩ := by
  have found : scanFirst.callersAt? 42 = some ⟨storing, [⟨reading, 17⟩]⟩ := by cbv
  have callers : scanFirst.callers "SAVE" = ["SCAN", "LOOP"] := rfl
  have stands : scanFirst.StandsFor reading "SCAN" := ⟨1, .loop rfl rfl rfl (.plain rfl (by decide))⟩
  refine ⟨found, ?_⟩
  obtain ⟨done, id, rest, ids_eq, _, fresh, _, earliest_iff, _⟩ := caller_line_of_first found List.mem_cons_self
  rcases List.cons_eq_append_iff.1 (callers.symm.trans ids_eq) with ⟨_, split⟩ | ⟨_, rfl, _⟩
  · cases split
    refine (earliest_iff 17 rfl).2 fun later member _ recorded here => ?_
    cases List.mem_singleton.1 member
    cases here
  · exact absurd stands (fresh "SCAN" List.mem_cons_self)

/-- The first line of `READ` is shown, though a line is known for the second of its loops. -/
theorem loopFirst_line : loopFirst.check = .ok () ∧ loopFirst.callersAt? 42 = some ⟨storing, [⟨reading, 10⟩]⟩ ∧
    loopFirst.RecordedLine storing reading 17 ∧ ¬ loopFirst.EarliestLine storing ⟨reading, 10⟩ := by
  have found : loopFirst.callersAt? 42 = some ⟨storing, [⟨reading, 10⟩]⟩ := by cbv
  have callers : loopFirst.callers "SAVE" = ["LOOP", "SCAN"] := rfl
  have recorded : loopFirst.RecordedLine storing reading 17 := by
    refine ⟨"SCAN", ?_, ⟨1, .loop rfl rfl rfl (.plain rfl (by decide))⟩, rfl⟩
    rw [storing, callers]
    exact List.mem_cons_of_mem _ List.mem_cons_self
  refine ⟨by cbv, found, recorded, fun earliest => ?_⟩
  rcases earliest with ⟨⟨id, member, _, here⟩, _⟩ | ⟨nowhere, _⟩
  · rw [storing, callers] at member
    rcases List.mem_cons.1 member with rfl | last
    · cases here
    · cases List.mem_singleton.1 last
      cases here
  · exact nowhere 17 recorded

end Graph

end CallChart
