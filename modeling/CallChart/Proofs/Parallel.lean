import Mathlib.Data.List.Forall2
import CallChart.Ordered.Distinct
import CallChart.Proofs.Narration

/-! Two walks side by side. Where two graphs have the same calls among nodes that are alike, their walks take the same
turns: they tell the same nodes in the same places and link the same places, under ids that may differ. All that is
asked of the ids is that two places share one in the first narrative just when they do in the second. -/

namespace CallChart

open Relator (BiUnique)

/-- Two nodes are shown alike: they differ at most in their invocations. -/
structure Node.Alike (first second : Node) : Prop where
  id : first.id = second.id
  label : first.label = second.label
  kind : first.kind = second.kind
  firstLine : first.firstLine = second.firstLine
  lastLine : first.lastLine = second.lastLine

theorem Node.Alike.refl (node : Node) : node.Alike node := ⟨rfl, rfl, rfl, rfl, rfl⟩

theorem Node.Alike.symm {first second : Node} (alike : first.Alike second) : second.Alike first :=
  ⟨alike.id.symm, alike.label.symm, alike.kind.symm, alike.firstLine.symm, alike.lastLine.symm⟩

section Related

variable {related : String → String → Prop} {member twin : String}

/-- A member is new to one list just when its match is new to the other. -/
theorem rel_concat_new (single : BiUnique related) (pair : related member twin) {items others : List String}
    (aligned : List.Forall₂ related items others) :
    List.Forall₂ related (if member ∈ items then items else items ++ [member])
      (if twin ∈ others then others else others ++ [twin]) := by
  have present : member ∈ items ↔ twin ∈ others := List.rel_mem single pair aligned
  by_cases inside : member ∈ items
  · rw [if_pos inside, if_pos (present.1 inside)]
    exact aligned
  · rw [if_neg inside, if_neg (fun there => inside (present.2 there))]
    exact List.rel_append aligned (.cons pair .nil)

theorem OrderedSet.rel_insert (single : BiUnique related) (pair : related member twin) {set other : OrderedSet String}
    (aligned : List.Forall₂ related set.toList other.toList) :
    List.Forall₂ related (set.insert member).toList (other.insert twin).toList := by
  rw [toList_insert, toList_insert]
  exact rel_concat_new single pair aligned

end Related

/-- Where keys are equal on one side just when they are on the other, the same elements are kept. -/
theorem rel_distinctOn {α β : Type} [DecidableEq β] {key : α → β} {related : α → α → Prop}
    (keys : ∀ {item twin other copy}, related item twin → related other copy → (key item = key other ↔ key twin = key copy))
    {before after : List α} (past : List.Forall₂ related before after) {items twins : List α}
    (aligned : List.Forall₂ related items twins) :
    List.Forall₂ related (distinctOn key (before.map key) items) (distinctOn key (after.map key) twins) := by
  induction aligned generalizing before after with
  | nil => exact .nil
  | @cons item twin items twins pair _ ih =>
    have met : key item ∈ before.map key ↔ key twin ∈ after.map key := by
      induction past with
      | nil => simp
      | cons old _ ih => rw [List.map_cons, List.map_cons, List.mem_cons, List.mem_cons, keys pair old, ih]
    unfold distinctOn
    by_cases here : key item ∈ before.map key
    · rw [if_pos here, if_pos (met.1 here)]
      exact ih past
    · rw [if_neg here, if_neg (fun there => here (met.2 there))]
      exact .cons pair (ih (.cons pair past))

structure Occurrence.Mirrors (related : String → String → Prop) (first second : Occurrence) : Prop where
  node : first.node.Alike second.node
  prev : List.Forall₂ related first.prev.toList second.prev.toList
  next : List.Forall₂ related first.next.toList second.next.toList

theorem Occurrence.Mirrors.mono {related wider : String → String → Prop} {first second : Occurrence}
    (mirrors : Occurrence.Mirrors related first second) (grows : ∀ left right, related left right → wider left right) :
    Occurrence.Mirrors wider first second :=
  ⟨mirrors.node, mirrors.prev.imp grows, mirrors.next.imp grows⟩

theorem lastIndex?_congr {α β : Type} {test : α → Bool} {other : β → Bool} {items : List α} {twins : List β}
    (aligned : List.Forall₂ (fun item twin => test item = other twin) items twins) :
    lastIndex? test items = lastIndex? other twins := by
  induction aligned with
  | nil => rfl
  | cons here _ ih => simp only [lastIndex?, ih, here]

private theorem forall₂_modify {α β : Type} {related : α → β → Prop} {change : α → α} {other : β → β}
    (keeps : ∀ item twin, related item twin → related (change item) (other twin)) {items : List α} {twins : List β}
    (aligned : List.Forall₂ related items twins) (index : Nat) :
    List.Forall₂ related (items.modify index change) (twins.modify index other) := by
  induction aligned generalizing index with
  | nil => simp
  | cons here rest ih =>
    cases index with
    | zero => exact .cons (keeps _ _ here) rest
    | succ index => exact .cons here (ih index)

namespace Narrative

/-- Two ids stand in the same place. -/
def Matches (first second : Narrative) (left right : String) : Prop := (left, right) ∈ first.ids.zip second.ids

/-- The same nodes in the same places, and links between the same places. -/
structure Mirrors (first second : Narrative) : Prop where
  places : List.Forall₂ (Occurrence.Mirrors (first.Matches second)) first.occurrences second.occurrences
  single : BiUnique (first.Matches second)

variable {first second third fourth : Narrative}

theorem matches_congr (left : third.ids = first.ids) (right : fourth.ids = second.ids) :
    third.Matches fourth = first.Matches second := by
  unfold Matches
  rw [left, right]

@[simp] theorem ids_link (source target : String) : (first.link source target).ids = first.ids := by
  rw [ids_eq_roster, roster_link, ids_eq_roster]

@[simp] theorem ids_linkAll (sources : List String) (target : String) :
    (first.linkAll sources target).ids = first.ids := by
  rw [ids_eq_roster, roster_linkAll, ids_eq_roster]

namespace Mirrors

variable {left right source target other twin : String}

theorem length_eq (mirrors : first.Mirrors second) : first.ids.length = second.ids.length := by
  simpa [ids] using mirrors.places.length_eq

/-- What stands in the same place has matching ids. -/
theorem aligned (mirrors : first.Mirrors second) :
    List.Forall₂ (fun occurrence copy => first.Matches second occurrence.id copy.id)
      first.occurrences second.occurrences := by
  rw [List.forall₂_iff_zip]
  refine ⟨mirrors.places.length_eq, ?_⟩
  intro occurrence copy member
  rw [Matches, ids, ids, List.zip_map]
  exact List.mem_map.2 ⟨(occurrence, copy), member, rfl⟩

theorem paired (mirrors : first.Mirrors second) :
    List.Forall₂ (fun occurrence copy => Occurrence.Mirrors (first.Matches second) occurrence copy ∧
      first.Matches second occurrence.id copy.id) first.occurrences second.occurrences := by
  obtain ⟨length, pairs⟩ := List.forall₂_iff_zip.1 mirrors.places
  obtain ⟨_, named⟩ := List.forall₂_iff_zip.1 mirrors.aligned
  exact List.forall₂_iff_zip.2 ⟨length, fun member => ⟨pairs member, named member⟩⟩

theorem position?_eq (mirrors : first.Mirrors second) (pair : first.Matches second left right) :
    first.position? left = second.position? right := by
  apply lastIndex?_congr
  refine mirrors.aligned.imp ?_
  intro occurrence copy here
  exact decide_eq_decide.2 (Relator.rel_eq mirrors.single here pair)

theorem tells_eq (mirrors : first.Mirrors second) (id : String) : first.tells id = second.tells id := by
  have same : List.Forall₂ (fun occurrence copy => occurrence.node.id = copy.node.id)
      first.occurrences second.occurrences := mirrors.places.imp fun _ _ pair => pair.node.id
  unfold tells
  generalize first.occurrences = items, second.occurrences = copies at same
  induction same with
  | nil => rfl
  | cons here _ ih => rw [List.any_cons, List.any_cons, ih, here]

private theorem modify (mirrors : first.Mirrors second) (pair : first.Matches second left right)
    (change alter : Occurrence → Occurrence)
    (same : ∀ occurrence, (change occurrence).id = occurrence.id ∧ (change occurrence).node = occurrence.node)
    (alike : ∀ occurrence, (alter occurrence).id = occurrence.id ∧ (alter occurrence).node = occurrence.node)
    (keeps : ∀ occurrence copy, Occurrence.Mirrors (first.Matches second) occurrence copy →
      Occurrence.Mirrors (first.Matches second) (change occurrence) (alter copy)) :
    (first.modify left change).Mirrors (second.modify right alter) ∧
      (first.modify left change).Matches (second.modify right alter) = first.Matches second := by
  have matched : (first.modify left change).Matches (second.modify right alter) = first.Matches second :=
    matches_congr (ids_modify left same) (ids_modify right alike)
  refine ⟨⟨?_, ?_⟩, matched⟩
  · rw [matched, Narrative.modify, Narrative.modify, mirrors.position?_eq pair]
    split
    · exact forall₂_modify keeps mirrors.places _
    · exact mirrors.places
  · rw [matched]
    exact mirrors.single

theorem link (mirrors : first.Mirrors second) (leaves : first.Matches second source other)
    (arrives : first.Matches second target twin) : (first.link source target).Mirrors (second.link other twin) := by
  obtain ⟨middle, matched⟩ := modify mirrors leaves
    (fun occurrence => { occurrence with next := occurrence.next.insert target })
    (fun occurrence => { occurrence with next := occurrence.next.insert twin })
    (fun _ => ⟨rfl, rfl⟩) (fun _ => ⟨rfl, rfl⟩)
    (fun _ _ pair => ⟨pair.node, pair.prev, OrderedSet.rel_insert mirrors.single arrives pair.next⟩)
  rw [← matched] at leaves arrives
  exact (modify middle arrives
    (fun occurrence => { occurrence with prev := occurrence.prev.insert source })
    (fun occurrence => { occurrence with prev := occurrence.prev.insert other })
    (fun _ => ⟨rfl, rfl⟩) (fun _ => ⟨rfl, rfl⟩)
    (fun _ _ pair => ⟨pair.node, OrderedSet.rel_insert middle.single leaves pair.prev, pair.next⟩)).1

theorem linkAll {sources others : List String} (mirrors : first.Mirrors second)
    (leaves : List.Forall₂ (first.Matches second) sources others) (arrives : first.Matches second target twin) :
    (first.linkAll sources target).Mirrors (second.linkAll others twin) := by
  induction sources generalizing others first second with
  | nil =>
    cases leaves
    exact mirrors
  | cons source sources ih =>
    cases leaves with
    | @cons _ other _ others here rest =>
      have matched : (first.link source target).Matches (second.link other twin) = first.Matches second :=
        matches_congr (ids_link ..) (ids_link ..)
      change ((first.link source target).linkAll sources target).Mirrors ((second.link other twin).linkAll others twin)
      apply ih (mirrors.link here arrives)
      · rw [matched]
        exact rest
      · rw [matched]
        exact arrives

theorem matches_push (mirrors : first.Mirrors second) {occurrence copy : Occurrence} :
    (first.push occurrence).Matches (second.push copy) left right ↔
      first.Matches second left right ∨ (left = occurrence.id ∧ right = copy.id) := by
  have same := mirrors.length_eq
  simp only [Matches, ids, Narrative.push, List.map_append, List.map_cons, List.map_nil] at same ⊢
  rw [List.zip_append same, List.mem_append, List.zip_cons_cons, List.zip_nil_left, List.mem_singleton,
    Prod.mk.injEq]

theorem push (mirrors : first.Mirrors second) {node alike : Node} (same : node.Alike alike)
    (single : BiUnique ((first.push { id := left, node }).Matches (second.push { id := right, node := alike }))) :
    (first.push { id := left, node }).Mirrors (second.push { id := right, node := alike }) := by
  refine ⟨List.rel_append ?_ (.cons ⟨same, .nil, .nil⟩ .nil), single⟩
  refine mirrors.places.imp ?_
  intro occurrence copy pair
  exact pair.mono fun _ _ old => mirrors.matches_push.2 (.inl old)

end Mirrors

end Narrative

structure Visit.Mirrors (related : String → String → Prop) (first second : Visit) : Prop where
  entry : related first.entry second.entry
  ends : Option.Rel (List.Forall₂ related) first.ends second.ends

theorem Visit.Mirrors.getD {related : String → String → Prop} {first second : Visit} (mirrors : Visit.Mirrors related first second)
    {items others : List String} (aligned : List.Forall₂ related items others) :
    List.Forall₂ related (first.ends.getD items) (second.ends.getD others) := by
  have ends := mirrors.ends
  generalize first.ends = left, second.ends = right at ends
  cases ends with
  | some pairs => exact pairs
  | none => exact aligned

theorem Visit.Mirrors.leaf {related : String → String → Prop} {left right : String} (pair : related left right) :
    Visit.Mirrors related (.leaf left) (.leaf right) :=
  ⟨pair, .some (.cons pair .nil)⟩

structure Ends.Mirrors (related : String → String → Prop) (first second : Ends) : Prop where
  main : List.Forall₂ related first.main second.main
  ran : first.ran = second.ran
  branches : List.Forall₂ related first.branches second.branches

namespace Ends.Mirrors

variable {related wider : String → String → Prop} {first second : Ends}

theorem mono (mirrors : Ends.Mirrors related first second) (grows : ∀ left right, related left right → wider left right) :
    Ends.Mirrors wider first second :=
  ⟨mirrors.main.imp grows, mirrors.ran, mirrors.branches.imp grows⟩

theorem all (single : BiUnique related) (mirrors : Ends.Mirrors related first second) :
    List.Forall₂ related first.all second.all := by
  unfold Ends.all
  refine List.rel_foldl ?_ ?_ mirrors.branches
  · intro items others aligned branch twin pair
    exact rel_concat_new single pair aligned
  · have empty : first.branches.isEmpty = second.branches.isEmpty := by
      rw [Bool.eq_iff_iff, List.isEmpty_iff_length_eq_zero, List.isEmpty_iff_length_eq_zero, mirrors.branches.length_eq]
    rw [mirrors.ran, empty]
    split
    · exact mirrors.main
    · exact .nil

variable {visit again : Visit}

/-- A branch adds its ends to those of the branches. -/
theorem branched (mirrors : Ends.Mirrors related first second) (visits : Visit.Mirrors related visit again) :
    Ends.Mirrors related { first with branches := first.branches ++ visit.ends.getD [] }
      { second with branches := second.branches ++ again.ends.getD [] } :=
  ⟨mirrors.main, mirrors.ran, List.rel_append mirrors.branches (visits.getD .nil)⟩

/-- A callee in the line of the main ends passes them on, unless it closes the line. -/
theorem sequenced (mirrors : Ends.Mirrors related first second) (visits : Visit.Mirrors related visit again) (closing : Bool) :
    Ends.Mirrors related
      { first with ran := true, main := if closing then first.main else visit.ends.getD first.main }
      { second with ran := true, main := if closing then second.main else again.ends.getD second.main } := by
  refine ⟨?_, rfl, mirrors.branches⟩
  cases closing with
  | true => exact mirrors.main
  | false => exact visits.getD mirrors.main

end Ends.Mirrors

namespace Walk

/-- Two walks that have come the same way, the first through the given graph, with names that keep in step. -/
structure Abreast (graph : Graph) (kept : List (String × Node) → List (String × Node) → Prop)
    (first second : Walk) : Prop where
  told : first.told.Mirrors second.told
  /-- A node that is told once only has its own id in both. -/
  own : ∀ node, graph.node? node.id = some node → node.kind.duplicable = false → first.told.tells node.id = true →
    first.told.Matches second.told node.id node.id
  reached : ∀ key, Option.Rel (first.told.Matches second.told) (first.reached.find? key) (second.reached.find? key)
  names : kept first.told.roster second.told.roster

def Grows (walk other later last : Walk) : Prop :=
  ∀ left right, walk.told.Matches other.told left right → later.told.Matches last.told left right

theorem Grows.trans {walk other later last final behind : Walk} (first : Grows walk other later last)
    (second : Grows later last final behind) : Grows walk other final behind :=
  fun left right pair => second left right (first left right pair)

namespace Abreast

variable {graph : Graph} {kept : List (String × Node) → List (String × Node) → Prop} {walk other : Walk}

theorem linkAll (abreast : Abreast graph kept walk other) {sources copies : List String} {target twin : String}
    (leaves : List.Forall₂ (walk.told.Matches other.told) sources copies)
    (arrives : walk.told.Matches other.told target twin) :
    Abreast graph kept { walk with told := walk.told.linkAll sources target }
        { other with told := other.told.linkAll copies twin } ∧
      Grows walk other { walk with told := walk.told.linkAll sources target }
        { other with told := other.told.linkAll copies twin } := by
  have matched : (walk.told.linkAll sources target).Matches (other.told.linkAll copies twin) =
      walk.told.Matches other.told := Narrative.matches_congr (Narrative.ids_linkAll ..) (Narrative.ids_linkAll ..)
  have tells : ∀ id, (walk.told.linkAll sources target).tells id = walk.told.tells id := by
    intro id
    rw [Bool.eq_iff_iff, Narrative.tells_iff, Narrative.tells_iff, Narrative.roster_linkAll]
  refine ⟨⟨abreast.told.linkAll leaves arrives, ?_, ?_, ?_⟩, ?_⟩
  · intro node found single told
    rw [tells] at told
    rw [matched]
    exact abreast.own node found single told
  · intro key
    rw [matched]
    exact abreast.reached key
  · rw [Narrative.roster_linkAll, Narrative.roster_linkAll]
    exact abreast.names
  · intro left right pair
    rw [matched]
    exact pair

theorem note (abreast : Abreast graph kept walk other) {node alike : Node} (same : node.Alike alike) {name copy : String}
    (pair : walk.told.Matches other.told name copy) (caller : Option String) :
    Abreast graph kept (walk.note node caller name) (other.note alike caller copy) ∧
      Grows walk other (walk.note node caller name) (other.note alike caller copy) := by
  refine ⟨⟨by simpa only [told_note] using abreast.told, by simpa only [told_note] using abreast.own, ?_,
    by simpa only [told_note] using abreast.names⟩, by simp only [Grows, told_note, imp_self, implies_true]⟩
  intro key
  rw [told_note, told_note]
  unfold Walk.note
  split
  · next caller =>
    rw [← same.kind, ← same.id]
    split
    · rw [OrderedMap.find?_insert, OrderedMap.find?_insert]
      split
      · exact .some pair
      · exact abreast.reached key
    · exact abreast.reached key
  · exact abreast.reached key

/-- What was told of an id from a caller, if there is a caller. -/
theorem reached_from (abreast : Abreast graph kept walk other) (id : String) (caller : Option String) :
    Option.Rel (walk.told.Matches other.told) (caller.bind fun caller => walk.reached.find? (id, caller))
      (caller.bind fun caller => other.reached.find? (id, caller)) := by
  cases caller with
  | none => exact .none
  | some caller => exact abreast.reached (id, caller)

end Abreast

end Walk

namespace Graph

/-- Two graphs look the same from within a set of ids that calls do not leave. -/
structure Twins (left right : Graph) (inside : String → Prop) : Prop where
  nodes : ∀ id, inside id → Option.Rel Node.Alike (left.node? id) (right.node? id)
  callees : ∀ id, inside id → left.callees id = right.callees id
  closed : ∀ caller callee, inside caller → left.Calls caller callee → inside callee

/-- A relation of what two walks have told that every telling keeps, and under which ids match one to one. -/
structure InStep (left right : Graph) (shared others : List String)
    (kept : List (String × Node) → List (String × Node) → Prop) : Prop where
  single : ∀ {first second : Narrative}, kept first.roster second.roster → BiUnique (first.Matches second)
  tell : ∀ {walk other : Walk} {node twin : Node}, left.node? node.id = some node → right.node? twin.id = some twin →
    node.Alike twin → walk.told.Mirrors other.told →
    (node.kind.duplicable = true ∨ walk.told.tells node.id = false) →
    kept walk.told.roster other.told.roster →
    kept (walk.told.roster ++ [(walk.nextId shared node, node)]) (other.told.roster ++ [(other.nextId others twin, twin)])

structure Parallel (graph : Graph) (kept : List (String × Node) → List (String × Node) → Prop) (walk other : Walk)
    (visit : Visit) (later : Walk) (again : Visit) (last : Walk) : Prop where
  abreast : Walk.Abreast graph kept later last
  visit : Visit.Mirrors (later.told.Matches last.told) visit again
  grows : Walk.Grows walk other later last

variable {left right : Graph} {shared others : List String} {inside : String → Prop}
  {kept : List (String × Node) → List (String × Node) → Prop}

theorem visit_of_node {graph : Graph} {chain : List String} {node : Node} {walk : Walk}
    (found : graph.node? node.id = some node) :
    graph.visit shared chain node.id walk =
      if !node.kind.duplicable && walk.told.tells node.id then .ok (.leaf node.id, walk)
      else if node.id ∈ chain then .ok (.leaf (walk.nextId shared node), walk.tell (walk.nextId shared node) node)
      else
        match chain.head?.bind (fun caller => walk.reached.find? (node.id, caller)) with
        | some entry => .ok (⟨entry, none⟩, walk)
        | none =>
          match graph.tellCallees (graph.visit shared (node.id :: chain)) node (walk.nextId shared node)
              (graph.callees node.id) { main := [walk.nextId shared node] }
              ((walk.tell (walk.nextId shared node) node).note node chain.head? (walk.nextId shared node)) with
          | .error fault => .error fault
          | .ok (ends, later) =>
            .ok (finish node (walk.nextId shared node) (graph.callees node.id) ends later) := by
  rw [visit]
  split
  · next absent => cases absent.symm.trans found
  · next other located =>
    cases found.symm.trans located
    rfl

namespace Twins

theorem kind?_eq (twins : Twins left right inside) {id : String} (known : inside id) : left.kind? id = right.kind? id := by
  have same := twins.nodes id known
  unfold kind?
  generalize left.node? id = found, right.node? id = copy at same
  cases same with
  | some alike => exact congrArg some alike.kind
  | none => rfl

theorem node?_eq_some (twins : Twins left right inside) {id : String} {node : Node} (known : inside id)
    (found : left.node? id = some node) : ∃ twin, right.node? id = some twin ∧ node.Alike twin := by
  have same := twins.nodes id known
  rw [found] at same
  generalize right.node? id = copy at same
  cases same with
  | some alike => exact ⟨_, rfl, alike⟩

theorem branches_eq (twins : Twins left right inside) {parent twin : Node} (alike : parent.Alike twin) {callee : String}
    (known : inside callee) : left.branches parent callee = right.branches twin callee := by
  rw [branches, branches, alike.kind, twins.kind?_eq known]

theorem closes_eq (twins : Twins left right inside) {parent twin : Node} (alike : parent.Alike twin) {callee : String}
    {later : List String} (known : inside callee) (rest : ∀ other ∈ later, inside other) :
    left.closes parent callee later = right.closes twin callee later := by
  have same : later.all (fun other => parent.kind = .condition && (left.kind? other).all (· = .conditionElse)) =
      later.all (fun other => twin.kind = .condition && (right.kind? other).all (· = .conditionElse)) := by
    rw [Bool.eq_iff_iff, List.all_eq_true, List.all_eq_true]
    refine forall_congr' fun other => forall_congr' fun member => ?_
    rw [alike.kind, twins.kind?_eq (rest other member)]
  rw [closes, closes, same, alike.kind, twins.kind?_eq known]

end Twins

theorem InStep.abreast_tell (inStep : InStep left right shared others kept) {walk other : Walk} {node twin : Node}
    (found : left.node? node.id = some node) (copied : right.node? twin.id = some twin) (alike : node.Alike twin)
    (unsettled : node.kind.duplicable = true ∨ walk.told.tells node.id = false) (abreast : Walk.Abreast left kept walk other) :
    Walk.Abreast left kept (walk.tell (walk.nextId shared node) node) (other.tell (other.nextId others twin) twin) ∧
      (walk.tell (walk.nextId shared node) node).told.Matches (other.tell (other.nextId others twin) twin).told
        (walk.nextId shared node) (other.nextId others twin) ∧
      Walk.Grows walk other (walk.tell (walk.nextId shared node) node) (other.tell (other.nextId others twin) twin) := by
  have names := inStep.tell found copied alike abreast.told unsettled abreast.names
  rw [← Walk.roster_tell, ← Walk.roster_tell] at names
  have grows : Walk.Grows walk other (walk.tell (walk.nextId shared node) node)
      (other.tell (other.nextId others twin) twin) :=
    fun _ _ pair => abreast.told.matches_push.2 (.inl pair)
  refine ⟨⟨abreast.told.push alike (inStep.single names), ?_, ?_, names⟩,
    abreast.told.matches_push.2 (.inr ⟨rfl, rfl⟩), grows⟩
  · intro plain known single told
    by_cases before : walk.told.tells plain.id = true
    · exact grows _ _ (abreast.own plain known single before)
    · -- The node that has just been told is the one in question.
      obtain ⟨name, last, member, same⟩ := Narrative.tells_iff.1 told
      rw [Walk.roster_tell] at member
      rcases List.mem_append.1 member with old | new
      · exact absurd (Narrative.tells_iff.2 ⟨name, last, old, same⟩) before
      · cases List.mem_singleton.1 new
        rw [same, known] at found
        cases found
        refine abreast.told.matches_push.2 (.inr ⟨?_, ?_⟩)
        · simp [Walk.nextId, single]
        · simp [Walk.nextId, ← alike.kind, single, alike.id]
  · intro key
    have reached := abreast.reached key
    change Option.Rel _ (walk.reached.find? key) (other.reached.find? key)
    generalize walk.reached.find? key = entry, other.reached.find? key = copy at reached
    cases reached with
    | some pair => exact .some (grows _ _ pair)
    | none => exact .none

theorem Twins.tellCallees (twins : Twins left right inside) {visit again : String → Walk → Except GraphError (Visit × Walk)}
    {parent twin : Node} (alike : parent.Alike twin)
    (inner : ∀ {callee : String} {walk other later : Walk} {result : Visit}, inside callee →
      Walk.Abreast left kept walk other → visit callee walk = .ok (result, later) →
      ∃ copy last, again callee other = .ok (copy, last) ∧ Parallel left kept walk other result later copy last)
    {callees : List String} (known : ∀ callee ∈ callees, inside callee) {name copy : String} {ends opposite : Ends}
    {walk other : Walk} (abreast : Walk.Abreast left kept walk other) (named : walk.told.Matches other.told name copy)
    (facing : Ends.Mirrors (walk.told.Matches other.told) ends opposite) {last : Ends} {later : Walk}
    (told : left.tellCallees visit parent name callees ends walk = .ok (last, later)) :
    ∃ final behind, right.tellCallees again twin copy callees opposite other = .ok (final, behind) ∧
      Walk.Abreast left kept later behind ∧ Ends.Mirrors (later.told.Matches behind.told) last final ∧
      Walk.Grows walk other later behind := by
  induction callees generalizing ends opposite walk other with
  | nil =>
    cases told
    exact ⟨opposite, other, rfl, abreast, facing, fun _ _ pair => pair⟩
  | cons callee rest ih =>
    obtain ⟨here, there⟩ := List.forall_mem_cons.1 known
    unfold Graph.tellCallees at told ⊢
    split at told
    · cases told
    next result middle visited =>
      obtain ⟨twice, between, revisited, parallel⟩ := inner here abreast visited
      have opened := facing.mono parallel.grows
      have header := parallel.grows _ _ named
      rw [revisited]
      simp only [← twins.branches_eq alike here, ← twins.closes_eq alike here there]
      split at told
      · next branch =>
        rw [if_pos branch]
        obtain ⟨joined, linked⟩ := parallel.abreast.linkAll (.cons header .nil) parallel.visit.entry
        obtain ⟨final, behind, done, level, facing, grown⟩ :=
          ih there joined (linked _ _ header) ((opened.branched parallel.visit).mono linked) told
        exact ⟨final, behind, done, level, facing, (parallel.grows.trans linked).trans grown⟩
      · next plain =>
        rw [if_neg plain]
        obtain ⟨joined, linked⟩ := parallel.abreast.linkAll opened.main parallel.visit.entry
        have moved := opened.sequenced parallel.visit (left.closes parent callee rest)
        obtain ⟨final, behind, done, level, facing, grown⟩ := ih there joined (linked _ _ header) (moved.mono linked) told
        exact ⟨final, behind, done, level, facing, (parallel.grows.trans linked).trans grown⟩

theorem finish_parallel {node twin : Node} (alike : node.Alike twin) {name copy : String} (callees : List String)
    {ends opposite : Ends} {start onset walk other : Walk} (abreast : Walk.Abreast left kept walk other)
    (named : walk.told.Matches other.told name copy) (facing : Ends.Mirrors (walk.told.Matches other.told) ends opposite)
    (grows : Walk.Grows start onset walk other) :
    Parallel left kept start onset (finish node name callees ends walk).1 (finish node name callees ends walk).2
      (finish twin copy callees opposite other).1 (finish twin copy callees opposite other).2 := by
  have loose := facing.all abreast.told.single
  unfold finish
  rw [← alike.kind]
  split
  · split
    · exact ⟨abreast, .leaf named, grows⟩
    · obtain ⟨joined, linked⟩ := abreast.linkAll loose named
      exact ⟨joined, .leaf (linked _ _ named), grows.trans linked⟩
  · exact ⟨abreast, ⟨named, .some loose⟩, grows⟩

/-- Walks through graphs that look the same from an id on stay abreast. -/
theorem Twins.visit (twins : Twins left right inside) (inStep : InStep left right shared others kept)
    {chain : List String} {id : String} {walk other later : Walk} {visit : Visit} (known : inside id)
    (abreast : Walk.Abreast left kept walk other) (told : left.visit shared chain id walk = .ok (visit, later)) :
    ∃ again last, right.visit others chain id other = .ok (again, last) ∧
      Parallel left kept walk other visit later again last := by
  cases found : left.node? id with
  | none =>
    rw [Graph.visit] at told
    split at told
    · cases told
    · next located => cases found.symm.trans located
  | some node =>
    obtain ⟨twin, copied, alike⟩ := twins.node?_eq_some known found
    obtain ⟨_, rfl⟩ := node?_some found
    have retrieved : right.node? twin.id = some twin := alike.id ▸ copied
    rw [visit_of_node found] at told
    rw [alike.id, visit_of_node retrieved, ← alike.id, ← alike.kind, ← abreast.told.tells_eq]
    split at told
    · next settled =>
      rw [if_pos settled]
      cases told
      simp only [Bool.and_eq_true, Bool.not_eq_true'] at settled
      exact ⟨_, _, rfl, abreast, .leaf (abreast.own node found settled.1 settled.2), fun _ _ pair => pair⟩
    · next untold =>
      rw [if_neg untold]
      have unsettled : node.kind.duplicable = true ∨ walk.told.tells node.id = false := by
        cases duplicable : node.kind.duplicable <;> simp_all
      obtain ⟨level, named, grows⟩ := inStep.abreast_tell found retrieved alike unsettled abreast
      split at told
      · next inside =>
        rw [if_pos inside]
        cases told
        exact ⟨_, _, rfl, level, .leaf named, grows⟩
      · next closed =>
        rw [if_neg closed]
        have reached := abreast.reached_from node.id chain.head?
        generalize (chain.head?.bind fun caller => walk.reached.find? (node.id, caller)) = entry,
          (chain.head?.bind fun caller => other.reached.find? (node.id, caller)) = copy at reached told ⊢
        cases reached with
        | some pair =>
          cases told
          exact ⟨_, _, rfl, abreast, ⟨pair, .none⟩, fun _ _ pair => pair⟩
        | none =>
          dsimp only at told ⊢
          split at told
          · cases told
          next ends middle callees =>
          rw [← twins.callees node.id known]
          obtain ⟨begun, noted⟩ := level.note alike named chain.head?
          have shown := noted _ _ named
          have opening : Ends.Mirrors _ { main := [walk.nextId shared node] } { main := [other.nextId others twin] } :=
            ⟨.cons shown .nil, rfl, .nil⟩
          have fewer := unseen_cons_lt found closed
          obtain ⟨final, behind, done, after, facing, grown⟩ := twins.tellCallees alike
            (fun inside abreast visited => Twins.visit twins inStep inside abreast visited)
            (fun callee member => twins.closed node.id callee known ⟨contains_iff.2 ⟨node, found⟩, member⟩)
            begun shown opening callees
          rw [done]
          have result : finish node (walk.nextId shared node) (left.callees node.id) ends middle = (visit, later) :=
            Except.ok.inj told
          have finished := finish_parallel alike (left.callees node.id) after (grown _ _ shown) facing
            ((grows.trans noted).trans grown)
          rw [result] at finished
          exact ⟨_, _, rfl, finished⟩
termination_by left.unseen chain
decreasing_by exact fewer

/-- Graphs that look the same from their start nodes on are told alike. -/
theorem Twins.narrate (twins : Twins left right inside) (inStep : InStep left right left.shared right.shared kept)
    {entry twin : Node} (first : left.entry? = some entry) (second : right.entry? = some twin) (same : entry.id = twin.id)
    (known : inside entry.id) (begins : kept [] []) {narrative : Narrative} (told : left.narrate = .ok narrative) :
    ∃ again, right.narrate = .ok again ∧ narrative.Mirrors again ∧ kept narrative.roster again.roster := by
  obtain ⟨_, visit, walk, entered, visited, rfl⟩ := narrate_eq_ok told
  cases first.symm.trans entered
  have abreast : Walk.Abreast left kept {} {} := ⟨⟨.nil, inStep.single begins⟩, nofun, fun _ => .none, begins⟩
  obtain ⟨again, last, revisited, parallel⟩ := twins.visit inStep known abreast visited
  refine ⟨last.told, ?_, parallel.abreast.told, parallel.abreast.names⟩
  rw [Graph.narrate, second]
  dsimp only
  rw [← same, revisited]
  rfl

end Graph

end CallChart
