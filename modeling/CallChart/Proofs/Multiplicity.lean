import Mathlib.Algebra.BigOperators.Group.Finset.Basic
import Mathlib.Algebra.Order.BigOperators.Group.Finset
import Mathlib.Algebra.Order.Group.Nat
import Mathlib.Algebra.Ring.Nat
import Mathlib.Data.List.Permutation
import CallChart.Proofs.Histories
import CallChart.Proofs.Narration

/-! How often nodes are told. A telling is paid for by the call that leads to it: whenever a node is opened, it may tell
each of its callees once. A node is opened once for each of its callers at most, so nothing is told more often
than the openings of its callers allow. -/

namespace CallChart

def Narrative.tellings (narrative : Narrative) (id : String) : Nat :=
  narrative.occurrences.countP fun occurrence => occurrence.node.id = id

namespace Narrative

variable {narrative other : Narrative}

theorem tellings_eq_count (id : String) : narrative.tellings id = (narrative.roster.map fun entry => entry.2.id).count id := by
  rw [tellings, List.count, roster, List.map_map, List.countP_map]
  rfl

theorem tellings_congr (same : narrative.roster = other.roster) (id : String) : narrative.tellings id = other.tellings id := by
  rw [tellings_eq_count, tellings_eq_count, same]

theorem tellings_of_roster {name : String} {node : Node} (told : other.roster = narrative.roster ++ [(name, node)])
    (id : String) : other.tellings id = narrative.tellings id + [node.id].count id := by
  rw [tellings_eq_count, tellings_eq_count, told, List.map_append, List.count_append]
  rfl

end Narrative

def singles (roster : List (String × Node)) (id : String) : Nat :=
  roster.countP fun entry => entry.2.id = id && !entry.2.kind.duplicable

namespace Walk

/-- The callers for which a node that may be told again was opened. -/
def origins (walk : Walk) (id : String) : List String :=
  (walk.reached.keys.filter fun key => key.1 = id).map Prod.snd

def openings (walk : Walk) (id : String) : Nat := (walk.origins id).length + singles walk.told.roster id

variable {walk : Walk}

theorem mem_origins {id caller : String} : caller ∈ walk.origins id ↔ walk.Noted id caller := by
  simp [origins, Noted]

theorem origins_nodup (walk : Walk) (id : String) : (walk.origins id).Nodup := by
  have keys : walk.reached.keys.Nodup := walk.reached.nodup
  refine (keys.filter _).map_on ?_
  intro first listed second present same
  have left : first.1 = id := by simpa using (List.mem_filter.1 listed).2
  have right : second.1 = id := by simpa using (List.mem_filter.1 present).2
  exact Prod.ext (left.trans right.symm) same

/-- The first note for a callee and its caller makes the caller an origin of the callee. -/
theorem origins_note {node : Node} {caller name : String} (duplicable : node.kind.duplicable = true)
    (unreached : walk.reached.find? (node.id, caller) = none) (id : String) :
    (walk.note node (some caller) name).origins id = walk.origins id ++ if node.id = id then [caller] else [] := by
  have absent := OrderedMap.find?_eq_none_iff.1 unreached
  unfold origins note
  simp only [duplicable, if_true, OrderedMap.keys_insert, if_neg absent, List.filter_append, List.map_append]
  by_cases here : node.id = id
  · simp [here]
  · simp [here]

theorem openings_congr {other : Walk} (roster : other.told.roster = walk.told.roster)
    (reached : other.reached = walk.reached) (id : String) : other.openings id = walk.openings id := by
  rw [openings, openings, origins, origins, roster, reached]

end Walk

theorem singles_append (roster : List (String × Node)) (name : String) (node : Node) (id : String) :
    singles (roster ++ [(name, node)]) id =
      singles roster id + if node.kind.duplicable then 0 else [node.id].count id := by
  rw [singles, List.countP_append, ← singles]
  cases duplicable : node.kind.duplicable with
  | true => simp [duplicable]
  | false => simp [duplicable, List.count_singleton, List.countP_cons]

theorem Walk.openings_tell_le (walk : Walk) (name : String) (node : Node) (id : String) :
    walk.openings id ≤ (walk.tell name node).openings id := by
  have same : (walk.tell name node).origins id = walk.origins id := rfl
  rw [Walk.openings, Walk.openings, same, Walk.roster_tell, singles_append]
  omega

namespace Opening

variable {graph : Graph} {opening : Opening}

/-- A node that may be told again is opened for a caller. -/
theorem origins_begun (shared : List String) (fresh : opening.Fresh graph)
    (single : opening.chain = [] → opening.node.kind.duplicable = false) (id : String) :
    ((opening.begun shared).origins id).length =
      (opening.start.origins id).length + if opening.node.kind.duplicable then [opening.node.id].count id else 0 := by
  have told : (opening.start.tell (opening.name shared) opening.node).origins id = opening.start.origins id := rfl
  rw [begun]
  cases duplicable : opening.node.kind.duplicable with
  | false =>
    have unnoted : ∀ walk : Walk, walk.note opening.node opening.chain.head? (opening.name shared) = walk := by
      intro walk
      unfold Walk.note
      split <;> simp [duplicable]
    rw [unnoted, told, if_neg Bool.false_ne_true, Nat.add_zero]
  | true =>
    cases head : opening.chain.head? with
    | none => simp [single (List.head?_eq_none_iff.1 head)] at duplicable
    | some caller =>
      have unreached : (opening.start.tell (opening.name shared) opening.node).reached.find? (opening.node.id, caller) =
          none := fresh.unreached caller head
      rw [Walk.origins_note duplicable unreached, told, if_pos rfl, List.length_append,
        List.count_singleton]
      by_cases here : opening.node.id = id
      · simp [here]
      · simp [here]

theorem openings_begun (shared : List String) (fresh : opening.Fresh graph)
    (single : opening.chain = [] → opening.node.kind.duplicable = false) (id : String) :
    (opening.begun shared).openings id = opening.start.openings id + [opening.node.id].count id := by
  rw [Walk.openings, Walk.openings, origins_begun shared fresh single, roster_begun, singles_append]
  cases opening.node.kind.duplicable with
  | true => simp only [if_true]; omega
  | false => simp only [Bool.false_eq_true, if_false]; omega

end Opening

namespace Graph

variable {graph : Graph} {shared : List String} {root : String}

def allowance (graph : Graph) (walk : Walk) (id : String) : Nat := ((graph.callers id).map walk.openings).sum

theorem allowance_congr {walk other : Walk} (roster : other.told.roster = walk.told.roster)
    (reached : other.reached = walk.reached) (id : String) : graph.allowance other id = graph.allowance walk id := by
  rw [allowance, allowance, funext (Walk.openings_congr roster reached)]

theorem allowance_tell_le (walk : Walk) (name : String) (node : Node) (id : String) :
    graph.allowance walk id ≤ graph.allowance (walk.tell name node) id :=
  List.sum_le_sum fun caller _ => walk.openings_tell_le name node caller

private theorem sum_count_singleton (items : List String) (id : String) :
    (items.map fun item => [id].count item).sum = items.count id := by
  induction items with
  | nil => rfl
  | cons item rest ih =>
    rw [List.map_cons, List.sum_cons, ih, List.count_singleton, List.count_cons]
    by_cases here : id = item
    · simp [here, Nat.add_comm]
    · simp [here, Ne.symm here]

theorem Consistent.count_callers (consistent : graph.Consistent) (caller callee : String) :
    (graph.callers callee).count caller = (graph.callees caller).count callee := by
  have callers : (graph.callers callee).Nodup := OrderedSet.nodup _
  rw [callers.count, (graph.callees_nodup caller).count]
  simp only [consistent.agree]

theorem Consistent.allowance_begun (consistent : graph.Consistent) {opening : Opening} (fresh : opening.Fresh graph)
    (single : opening.chain = [] → opening.node.kind.duplicable = false) (id : String) :
    graph.allowance (opening.begun shared) id =
      graph.allowance opening.start id + (graph.callees opening.node.id).count id := by
  rw [allowance, funext (Opening.openings_begun shared fresh single), List.sum_map_add, sum_count_singleton,
    consistent.count_callers, allowance]

/-- The law of growth. Between two moments, an id is told no more often than its callers are opened, the call that
led to it apart; and a node that is open may still tell each callee that is not done with. -/
def growthLaw (graph : Graph) : Law where
  before _ _ _ := True
  amid opening done _ walk := ∀ id,
    walk.told.tellings id + (graph.callees opening.node.id).count id + graph.allowance opening.start id ≤
      opening.start.told.tellings id + graph.allowance walk id + [opening.node.id].count id + done.count id
  after _ told walk _ later := ∀ id,
    later.told.tellings id + graph.allowance walk id ≤
      walk.told.tellings id + graph.allowance later id + [told].count id

private theorem growth_step {opening : Opening} {done : List String} {callee : String} {ends last : Ends}
    {walk told relinked : Walk} {visit : Visit}
    (roster : relinked.told.roster = told.told.roster) (reached : relinked.reached = told.reached)
    (holds : graph.growthLaw.amid opening done ends walk)
    (after : graph.growthLaw.after (opening.node.id :: opening.chain) callee walk visit told) :
    graph.growthLaw.amid opening (done ++ [callee]) last relinked := by
  intro id
  have before := holds id
  have grown := after id
  rw [Narrative.tellings_congr roster, allowance_congr roster reached, List.count_append]
  omega

theorem Consistent.growthLaw_kept (consistent : graph.Consistent) (shared : List String) (root : String) :
    Law.Kept graph shared (graph.trailLaw root) graph.growthLaw where
  settled _ _ _ _ _ id := Nat.le_add_right _ _
  repeated {_ node walk} _ _ _ _ _ id := by
    have told : (walk.tell (walk.nextId shared node) node).told.roster = _ := Walk.roster_tell _ _
    have allowed := graph.allowance_tell_le walk (walk.nextId shared node) node id
    rw [Narrative.tellings_of_roster told]
    omega
  reused _ _ _ _ _ _ id := Nat.le_add_right _ _
  opened {opening} fresh approach _ id := by
    have told : (opening.begun shared).told.roster = _ := Opening.roster_begun
    have single := fun none => approach.single none opening.node fresh.found
    rw [Narrative.tellings_of_roster told, consistent.allowance_begun fresh single, List.count_nil]
    omega
  called _ _ _ _ := trivial
  branched _ _ _ _ _ holds after := growth_step (Narrative.roster_link _ _) rfl holds after
  sequenced _ _ _ _ _ holds after := growth_step (Narrative.roster_linkAll _ _) rfl holds after
  finished _ _ holds id := by
    have whole := holds id
    rw [Narrative.tellings_congr roster_finish, allowance_congr roster_finish reached_finish]
    omega

private theorem singles_eq_zero {narrative : Narrative} {id : String} (untold : narrative.tells id = false) :
    singles narrative.roster id = 0 := by
  apply List.countP_eq_zero.2
  intro entry member
  have different : entry.2.id ≠ id := by
    intro same
    rw [Narrative.tells_iff.2 ⟨entry.1, entry.2, member, same⟩] at untold
    cases untold
  simp [different]

/-- What may be told once only is told at most once. -/
theorem singles_kept (graph : Graph) (shared : List String) :
    Law.Kept graph shared .any (.ofRoster fun roster => ∀ id, singles roster id ≤ 1) := by
  apply Law.ofRoster_kept
  intro walk node _ unsettled held id
  have before := held id
  rw [singles_append]
  split
  · exact before
  · next single =>
    by_cases here : node.id = id
    · have untold := unsettled.resolve_left single
      rw [here] at untold ⊢
      rw [singles_eq_zero untold, List.count_singleton_self]
    · rw [List.count_singleton, if_neg (by simpa using here)]
      exact before

/-- A note names a caller of its callee. -/
theorem Trail.calls_of_noted {chain : List String} {walk : Walk} (trail : graph.Trail root chain walk)
    {callee caller : String} (noted : walk.Noted callee caller) :
    graph.Calls caller callee ∧ ∃ node, graph.node? callee = some node ∧ node.kind.duplicable = true := by
  obtain ⟨entry, known⟩ := Option.isSome_iff_exists.1 (Walk.find?_isSome_iff_noted.2 noted)
  obtain ⟨call, node, member, rfl, duplicable⟩ := trail.notes callee caller entry known
  exact ⟨call, node, (trail.behind entry node member).1, duplicable⟩

/-- A node is opened at most once for each of its callers, and at most once if it is told once only. -/
theorem Trail.openings_le (consistent : graph.Consistent) {chain : List String} {walk : Walk}
    (trail : graph.Trail root chain walk) (once : ∀ id, singles walk.told.roster id ≤ 1) (id : String) :
    walk.openings id ≤ max 1 (graph.callers id).length := by
  cases origins : walk.origins id with
  | nil =>
    rw [Walk.openings, origins, List.length_nil, Nat.zero_add]
    exact Nat.le_trans (once id) (Nat.le_max_left _ _)
  | cons caller rest =>
    have noted : walk.Noted id caller := Walk.mem_origins.1 (by simp [origins])
    obtain ⟨_, node, found, duplicable⟩ := trail.calls_of_noted noted
    have none : singles walk.told.roster id = 0 := by
      apply List.countP_eq_zero.2
      intro entry member
      by_cases here : entry.2.id = id
      · have same := (trail.behind entry.1 entry.2 member).1
        rw [here, found] at same
        simp [← Option.some.inj same, duplicable]
      · simp [here]
    have listed : walk.origins id ⊆ graph.callers id := by
      intro other member
      exact (consistent.calls_iff_mem_callers.1 (trail.calls_of_noted (Walk.mem_origins.1 member)).1).2
    have fewer := ((walk.origins_nodup id).subperm listed).length_le
    rw [Walk.openings, none]
    omega

/-- Nothing is told more often than its callers were opened, once more if the walk began with it. -/
theorem Consistent.tellings_le (consistent : graph.Consistent) {entry : Node} (first : graph.entry? = some entry)
    {narrative : Narrative} (told : graph.narrate = .ok narrative) :
    ∃ walk, walk.told = narrative ∧ graph.Trail entry.id [] walk ∧ (∀ id, singles walk.told.roster id ≤ 1) ∧
      ∀ id, narrative.tellings id ≤ graph.allowance walk id + [entry.id].count id := by
  obtain ⟨visit, walk, visited, rfl, begins, _⟩ := consistent.visited first told
  have kept := (trailLaw_kept graph graph.shared entry.id).both (consistent.growthLaw_kept graph.shared entry.id)
  obtain ⟨⟨trail, _⟩, growth⟩ := kept.visit visited ⟨begins, trivial⟩
  have once := (singles_kept graph graph.shared).visit visited fun _ => Nat.zero_le _
  refine ⟨walk, rfl, trail, once, fun id => ?_⟩
  have grown := growth id
  have nothing : ({} : Walk).told.tellings id = 0 := rfl
  omega

theorem Trail.openings_eq_zero {chain : List String} {walk : Walk} (trail : graph.Trail root chain walk) {id : String}
    (unknown : graph.contains id = false) : walk.openings id = 0 := by
  have origins : walk.origins id = [] := by
    apply List.eq_nil_iff_forall_not_mem.2
    intro caller member
    obtain ⟨_, node, found, _⟩ := trail.calls_of_noted (Walk.mem_origins.1 member)
    rw [contains_iff.2 ⟨node, found⟩] at unknown
    cases unknown
  have untold : walk.told.tells id = false := by
    rw [Bool.eq_false_iff]
    intro told
    obtain ⟨name, node, member, rfl⟩ := Narrative.tells_iff.1 told
    rw [contains_iff.2 ⟨node, (trail.behind name node member).1⟩] at unknown
    cases unknown
  rw [Walk.openings, origins, singles_eq_zero untold]
  rfl

/-- Summed over the nodes, what the openings of callers allow is what each opening allows its callees. -/
private theorem Trail.sum_allowance_le (consistent : graph.Consistent) {chain : List String} {walk : Walk}
    (trail : graph.Trail root chain walk) :
    (graph.ids.map (graph.allowance walk)).sum ≤
      (graph.ids.map fun id => walk.openings id * (graph.callees id).length).sum := by
  have known : ∀ id, graph.allowance walk id =
      ((graph.callers id).toFinset ∩ graph.ids.toFinset).sum walk.openings := by
    intro id
    have distinct : (graph.callers id).Nodup := OrderedSet.nodup _
    rw [allowance, ← List.sum_toFinset _ distinct]
    symm
    apply Finset.sum_subset Finset.inter_subset_left
    intro caller member outside
    apply trail.openings_eq_zero
    rw [Bool.eq_false_iff]
    intro present
    apply outside
    rw [Finset.mem_inter, List.mem_toFinset, List.mem_toFinset]
    exact ⟨List.mem_toFinset.1 member, contains_iff_mem_ids.1 present⟩
  have swapped : graph.ids.toFinset.sum (graph.allowance walk) =
      graph.ids.toFinset.sum fun caller =>
        ((graph.callees caller).toFinset ∩ graph.ids.toFinset).sum fun _ => walk.openings caller := by
    rw [Finset.sum_congr rfl fun id _ => known id]
    apply Finset.sum_comm'
    intro callee caller
    simp only [Finset.mem_inter, List.mem_toFinset, consistent.agree]
    tauto
  rw [← List.sum_toFinset _ consistent.distinct, ← List.sum_toFinset _ consistent.distinct, swapped]
  apply Finset.sum_le_sum
  intro caller _
  rw [Finset.sum_const_nat fun _ _ => rfl, Nat.mul_comm]
  apply Nat.mul_le_mul_left
  exact (Finset.card_le_card Finset.inter_subset_left).trans (List.toFinset_card_le _)

private theorem length_eq_sum_tellings {narrative : Narrative} {ids : List String} (distinct : ids.Nodup)
    (inside : ∀ occurrence ∈ narrative.occurrences, occurrence.node.id ∈ ids) :
    narrative.occurrences.length = (ids.map narrative.tellings).sum := by
  have told : ∀ id ∈ (narrative.occurrences.map fun occurrence => occurrence.node.id : Multiset String),
      id ∈ ids.toFinset := by
    intro id member
    obtain ⟨occurrence, listed, rfl⟩ := List.mem_map.1 (Multiset.mem_coe.1 member)
    exact List.mem_toFinset.2 (inside occurrence listed)
  have counted := Multiset.sum_count_eq_card told
  rw [Multiset.coe_card, List.length_map] at counted
  rw [← counted, ← List.sum_toFinset _ distinct]
  apply Finset.sum_congr rfl
  intro id _
  rw [Multiset.coe_count, List.count, List.countP_map, Narrative.tellings]
  rfl

/-- However cyclic or shared a graph is, a node other than the entry is told at most as often as each of its callers
can be opened, so the length of a narrative is bounded by the numbers of callers and callees. -/
theorem tellings_bounded (built : graph.Built) {narrative : Narrative} (told : graph.narrate = .ok narrative) :
    ∃ entry, graph.entry? = some entry ∧
      (∀ id, id ≠ entry.id → narrative.tellings id ≤
        ((graph.callers id).map fun caller => max 1 (graph.callers caller).length).sum) ∧
      narrative.occurrences.length ≤
        1 + (graph.nodes.map fun node => max 1 (graph.callers node.id).length * (graph.callees node.id).length).sum := by
  have consistent := built.consistent
  obtain ⟨entry, _, _, first, _⟩ := narrate_eq_ok told
  obtain ⟨walk, rfl, trail, once, bound⟩ := consistent.tellings_le first told
  have opened := trail.openings_le consistent once
  refine ⟨entry, first, ?_, ?_⟩
  · intro id other
    have none : [entry.id].count id = 0 := List.count_eq_zero.2 (by simpa using other)
    calc walk.told.tellings id ≤ graph.allowance walk id := by have := bound id; omega
      _ ≤ _ := List.sum_le_sum fun caller _ => opened caller
  · have inside : ∀ occurrence ∈ walk.told.occurrences, occurrence.node.id ∈ graph.ids := by
      intro occurrence member
      have found := (trail.behind occurrence.id occurrence.node (List.mem_map_of_mem member)).1
      exact contains_iff_mem_ids.1 (contains_iff.2 ⟨_, found⟩)
    have start : (graph.ids.map fun id => [entry.id].count id).sum = 1 := by
      rw [sum_count_singleton]
      exact List.count_eq_one_of_mem consistent.distinct (contains_iff_mem_ids.1 (contains_entry first))
    calc walk.told.occurrences.length = (graph.ids.map walk.told.tellings).sum :=
          length_eq_sum_tellings consistent.distinct inside
      _ ≤ (graph.ids.map fun id => graph.allowance walk id + [entry.id].count id).sum :=
          List.sum_le_sum fun id _ => bound id
      _ = (graph.ids.map (graph.allowance walk)).sum + 1 := by rw [List.sum_map_add, start]
      _ ≤ (graph.ids.map fun id => walk.openings id * (graph.callees id).length).sum + 1 :=
          Nat.add_le_add_right (trail.sum_allowance_le consistent) 1
      _ ≤ (graph.ids.map fun id => max 1 (graph.callers id).length * (graph.callees id).length).sum + 1 :=
          Nat.add_le_add_right (List.sum_le_sum fun id _ => Nat.mul_le_mul_right _ (opened id)) 1
      _ = _ := by rw [ids, List.map_map, Nat.add_comm]; rfl

/-- Two paragraphs that call each other and are both called by the start node. A third is called by both of them and by
an id that is no node. -/
def busy : List Edit := [
  .brief "MAIN" .start, .brief "OPEN" .normal, .brief "LOCK" .normal, .brief "SEND" .normal, .link "MAIN" "OPEN",
  .link "MAIN" "LOCK", .link "OPEN" "LOCK", .link "LOCK" "OPEN", .link "LOCK" "SEND", .link "OPEN" "SEND",
  .link "OLD" "SEND"]

theorem narrate_busy : ∃ narrative, (edited busy).narrate = .ok narrative ∧
    (narrative.occurrences.map fun occurrence => occurrence.node.id) =
      ["MAIN", "OPEN", "LOCK", "OPEN", "SEND", "SEND", "LOCK", "OPEN", "LOCK"] := by
  apply exists_narrative
  cbv

theorem entry_busy {entry : Node} (first : Graph.entry? (edited busy) = some entry) : entry.id = "MAIN" := by
  cases first
  rfl

/-- The bound is reached: each of the two is told once for the start node and once for each opening of the other. -/
theorem busy_bounded :
    ∃ narrative, (edited busy).Built ∧ (edited busy).narrate = .ok narrative ∧ narrative.tellings "OPEN" = 3 ∧
      narrative.tellings "OPEN" ≤
        (((edited busy).callers "OPEN").map fun caller => max 1 ((edited busy).callers caller).length).sum ∧
      (((edited busy).callers "OPEN").map fun caller => max 1 ((edited busy).callers caller).length).sum = 3 ∧
      narrative.occurrences.length = 9 ∧ narrative.occurrences.length ≤ 11 := by
  obtain ⟨narrative, told, listed⟩ := narrate_busy
  obtain ⟨entry, first, bound, total⟩ := tellings_bounded (built_edited busy) told
  have other : "OPEN" ≠ entry.id := by
    rw [entry_busy first]
    decide
  have length := congrArg List.length listed
  rw [List.length_map] at length
  refine ⟨narrative, built_edited busy, told, ?_, bound "OPEN" other, by cbv, length, ?_⟩
  · have counted := congrArg (List.count "OPEN") listed
    rw [List.count, List.countP_map] at counted
    exact counted
  · have sum : 1 + ((edited busy).nodes.map fun node => max 1 ((edited busy).callers node.id).length *
        ((edited busy).callees node.id).length).sum = 11 := by cbv
    exact sum ▸ total

end Graph

end CallChart
