import Mathlib.Algebra.Order.BigOperators.Group.List
import Mathlib.Algebra.Order.Ring.Nat
import Mathlib.Logic.Relation
import CallChart.Graph.Closure

/-! Searches that keep a list of what is still to be looked at. A round takes some id off the list; an id that is new is
kept, and what it leads to is put on the list. A stack is such a list, and so is a queue, and ids may stand on either
more than once. However the rounds go, the search ends: no id is followed twice, so there are no more rounds than
there are ids to put on the list. And then it has seen exactly what its steps lead to. -/

namespace CallChart

structure Search where
  todo : List String
  seen : List String

namespace Graph

open Relation

/-- One step of a work list. Only nodes lead on. -/
def Steps (graph : Graph) (step : Node → List String) (first second : String) : Prop :=
  ∃ node, graph.node? first = some node ∧ second ∈ step node

def onward (graph : Graph) (step : Node → List String) (id : String) : List String :=
  ((graph.node? id).map step).getD []

/-- One round of a search. The id may stand anywhere on the list, and what it leads to may be put anywhere on it, with or
without what was seen before. -/
inductive Round (graph : Graph) (step : Node → List String) : Search → Search → Prop where
  | again {todo rest seen : List String} {id : String} (taken : todo.Perm (id :: rest)) (known : id ∈ seen) :
      Round graph step ⟨todo, seen⟩ ⟨rest, seen⟩
  | fresh {todo rest added next seen : List String} {id : String} (taken : todo.Perm (id :: rest)) (unseen : id ∉ seen)
      (few : added.Sublist (graph.onward step id))
      (enough : ∀ other ∈ graph.onward step id, other ∉ id :: seen → other ∈ added) (merged : next.Perm (added ++ rest)) :
      Round graph step ⟨todo, seen⟩ ⟨next, id :: seen⟩

inductive Rounds (graph : Graph) (step : Node → List String) : Nat → Search → Search → Prop where
  | none {search : Search} : Rounds graph step 0 search search
  | more {count : Nat} {first next last : Search} (round : graph.Round step first next)
      (rest : Rounds graph step count next last) : Rounds graph step (count + 1) first last

/-- A search that cannot go on forever, nor get stuck while there is something on its list. -/
structure Terminates (graph : Graph) (step : Node → List String) (start : Search) (limit : Nat) : Prop where
  bounded : ∀ count search, graph.Rounds step count start search → count ≤ limit
  proceeds : ∀ count search, graph.Rounds step count start search → search.todo ≠ [] → ∃ next, graph.Round step search next

variable {graph : Graph} {step : Node → List String}

theorem mem_onward {first second : String} : second ∈ graph.onward step first ↔ graph.Steps step first second := by
  unfold onward Steps
  cases graph.node? first with
  | none => simp
  | some node => simp

section Ending

/-- How many ids the nodes that were not seen can still put on a list. -/
def pending (graph : Graph) (step : Node → List String) (seen : List String) : Nat :=
  (graph.nodes.map fun node => if node.id ∈ seen then 0 else (step node).length).sum

def remaining (graph : Graph) (step : Node → List String) (search : Search) : Nat :=
  search.todo.length + graph.pending step search.seen

/-- An id that is seen gives up what it could put on the list. -/
private theorem pending_cons {id : String} {seen : List String} (unseen : id ∉ seen) :
    (graph.onward step id).length + graph.pending step (id :: seen) ≤ graph.pending step seen := by
  have less : ∀ nodes : List Node,
      (nodes.map fun node => if node.id ∈ id :: seen then 0 else (step node).length).sum ≤
        (nodes.map fun node => if node.id ∈ seen then 0 else (step node).length).sum := by
    intro nodes
    apply List.sum_le_sum
    intro node _
    by_cases known : node.id ∈ seen
    · simp [known]
    · rw [if_neg known]
      split <;> omega
  unfold onward pending
  cases found : graph.node? id with
  | none => simpa using less graph.nodes
  | some node =>
    -- The node drops out of the sum at its place, and elsewhere the sum does not grow.
    obtain ⟨member, named⟩ := node?_some found
    obtain ⟨front, back, split⟩ := List.append_of_mem member
    have before := less front
    have after := less back
    have counted : (if node.id ∈ seen then 0 else (step node).length) = (step node).length := by simp [named, unseen]
    have dropped : (if node.id ∈ id :: seen then 0 else (step node).length) = 0 := by simp [named]
    simp only [split, List.map_append, List.map_cons, List.sum_append, List.sum_cons, counted, dropped, Option.map_some,
      Option.getD_some]
    omega

theorem Round.remaining_lt {before after : Search} (round : graph.Round step before after) :
    graph.remaining step after < graph.remaining step before := by
  cases round with
  | again taken known =>
    have fewer := taken.length_eq
    simp only [remaining, List.length_cons] at fewer ⊢
    omega
  | @fresh _ _ _ _ seen id taken unseen few enough merged =>
    have fewer := taken.length_eq
    have grown := merged.length_eq
    have most := few.length_le
    have paid : (graph.onward step id).length + graph.pending step (id :: seen) ≤ graph.pending step seen :=
      pending_cons unseen
    simp only [remaining, List.length_cons, List.length_append] at fewer grown ⊢
    omega

theorem Rounds.add_remaining_le {count : Nat} {first last : Search} (rounds : graph.Rounds step count first last) :
    count + graph.remaining step last ≤ graph.remaining step first := by
  induction rounds with
  | none => omega
  | more round _ ih =>
    have lower := round.remaining_lt
    omega

theorem exists_round {search : Search} (left : search.todo ≠ []) : ∃ next, graph.Round step search next := by
  obtain ⟨todo, seen⟩ := search
  cases todo with
  | nil => exact absurd rfl left
  | cons id rest =>
    by_cases known : id ∈ seen
    · exact ⟨_, .again (.refl _) known⟩
    · exact ⟨_, .fresh (.refl _) known (.refl _) (fun _ member _ => member) (.refl _)⟩

theorem terminates (todo : List String) :
    graph.Terminates step ⟨todo, []⟩ (todo.length + (graph.nodes.map fun node => (step node).length).sum) := by
  constructor
  · intro count search rounds
    have bound := rounds.add_remaining_le
    simp only [remaining, pending, List.not_mem_nil, if_false] at bound
    omega
  · intro count search _ left
    exact exists_round left

theorem Terminates.mono {start : Search} {limit bound : Nat} (ends : graph.Terminates step start limit) (within : limit ≤ bound) :
    graph.Terminates step start bound :=
  ⟨fun count search rounds => (ends.bounded count search rounds).trans within, ends.proceeds⟩

end Ending

section Finding

/-- What holds of a search that began with some ids, from round to round: all that it came upon is led to, and what it
was to look at, or is led to from what it has seen, it has come upon. -/
structure Covers (graph : Graph) (step : Node → List String) (origins : List String) (search : Search) : Prop where
  sound : ∀ id, id ∈ search.seen ∨ id ∈ search.todo → ∃ first ∈ origins, ReflTransGen (graph.Steps step) first id
  begun : ∀ id ∈ origins, id ∈ search.seen ∨ id ∈ search.todo
  frontier : ∀ id ∈ search.seen, ∀ next, graph.Steps step id next → next ∈ search.seen ∨ next ∈ search.todo

variable {origins : List String} {before after search : Search}

/-- What a search came upon it does not lose. -/
theorem Round.keeps (round : graph.Round step before after) {id : String} (met : id ∈ before.seen ∨ id ∈ before.todo) :
    id ∈ after.seen ∨ id ∈ after.todo := by
  cases round with
  | again taken known =>
    rcases met with old | listed
    · exact Or.inl old
    · rcases List.mem_cons.1 (taken.mem_iff.1 listed) with rfl | later
      · exact Or.inl known
      · exact Or.inr later
  | fresh taken _ _ _ merged =>
    rcases met with old | listed
    · exact Or.inl (List.mem_cons_of_mem _ old)
    · rcases List.mem_cons.1 (taken.mem_iff.1 listed) with rfl | later
      · exact Or.inl List.mem_cons_self
      · exact Or.inr (merged.mem_iff.2 (List.mem_append_right _ later))

/-- A round comes upon nothing but what an id on the list leads to. -/
theorem Round.meets (round : graph.Round step before after) {id : String} (met : id ∈ after.seen ∨ id ∈ after.todo) :
    (id ∈ before.seen ∨ id ∈ before.todo) ∨ ∃ other ∈ before.todo, graph.Steps step other id := by
  cases round with
  | again taken _ =>
    refine Or.inl (met.imp_right fun listed => ?_)
    exact taken.mem_iff.2 (List.mem_cons_of_mem _ listed)
  | @fresh _ _ _ _ _ other taken _ few _ merged =>
    have here := taken.mem_iff.2 List.mem_cons_self
    rcases met with old | listed
    · rcases List.mem_cons.1 old with rfl | old
      · exact Or.inl (Or.inr here)
      · exact Or.inl (Or.inl old)
    · rcases List.mem_append.1 (merged.mem_iff.1 listed) with added | later
      · exact Or.inr ⟨other, here, mem_onward.1 (few.subset added)⟩
      · exact Or.inl (Or.inr (taken.mem_iff.2 (List.mem_cons_of_mem _ later)))

/-- Only an id whose steps are on the list becomes seen. -/
theorem Round.follows (round : graph.Round step before after) {id next : String} (member : id ∈ after.seen)
    (stepped : graph.Steps step id next) : id ∈ before.seen ∨ next ∈ after.seen ∨ next ∈ after.todo := by
  cases round with
  | again => exact Or.inl member
  | @fresh _ _ _ _ seen _ _ _ _ enough merged =>
    rcases List.mem_cons.1 member with rfl | old
    · by_cases known : next ∈ id :: seen
      · exact Or.inr (Or.inl known)
      · have added := enough next (mem_onward.2 stepped) known
        exact Or.inr (Or.inr (merged.mem_iff.2 (List.mem_append_left _ added)))
    · exact Or.inl old

theorem Covers.round (covers : graph.Covers step origins before) (round : graph.Round step before after) :
    graph.Covers step origins after := by
  constructor
  · intro id met
    rcases round.meets met with old | ⟨other, listed, stepped⟩
    · exact covers.sound id old
    · obtain ⟨first, origin, path⟩ := covers.sound other (Or.inr listed)
      exact ⟨first, origin, path.tail stepped⟩
  · intro id origin
    exact round.keeps (covers.begun id origin)
  · intro id member next stepped
    rcases round.follows member stepped with old | met
    · exact round.keeps (covers.frontier id old next stepped)
    · exact met

theorem Covers.rounds {count : Nat} (covers : graph.Covers step origins before) (rounds : graph.Rounds step count before after) :
    graph.Covers step origins after := by
  induction rounds with
  | none => exact covers
  | more round _ ih => exact ih (covers.round round)

theorem covers_start (origins : List String) : graph.Covers step origins ⟨origins, []⟩ := by
  constructor
  · intro id met
    cases met with
    | inl old => cases old
    | inr listed => exact ⟨id, listed, .refl⟩
  · exact fun id listed => Or.inr listed
  · exact fun id old => absurd old List.not_mem_nil

/-- With nothing left on the list, the search has seen what its steps lead to. -/
theorem Covers.mem_seen_iff (covers : graph.Covers step origins search) (finished : search.todo = []) {id : String} :
    id ∈ search.seen ↔ ∃ first ∈ origins, ReflTransGen (graph.Steps step) first id := by
  have settled : ∀ {other}, other ∈ search.seen ∨ other ∈ search.todo → other ∈ search.seen := by
    intro other met
    simpa [finished] using met
  constructor
  · intro member
    exact covers.sound id (Or.inl member)
  · intro led
    obtain ⟨first, origin, path⟩ := led
    induction path with
    | refl => exact settled (covers.begun first origin)
    | tail _ stepped ih => exact settled (covers.frontier _ ih _ stepped)

/-- The closure is what a search finds that takes the first id of its list and puts what it leads to in front. -/
theorem closure_rounds (graph : Graph) (step : Node → List String) (todo seen : List String) :
    ∃ count, graph.Rounds step count ⟨todo, seen⟩ ⟨[], graph.closure step todo seen⟩ := by
  fun_induction closure graph step todo seen with
  | case1 seen => exact ⟨0, .none⟩
  | case2 seen id rest known ih =>
    obtain ⟨count, rounds⟩ := ih
    exact ⟨count + 1, .more (.again (.refl _) known) rounds⟩
  | case3 seen id rest unseen missing ih =>
    obtain ⟨count, rounds⟩ := ih
    have nothing : graph.onward step id = [] := by rw [onward, missing]; rfl
    refine ⟨count + 1, .more (.fresh (.refl _) unseen (.refl _) (fun _ member _ => member) ?_) rounds⟩
    rw [nothing, List.nil_append]
  | case4 seen id rest unseen node found ih =>
    obtain ⟨count, rounds⟩ := ih
    have steps : graph.onward step id = step node := by rw [onward, found]; rfl
    refine ⟨count + 1, .more (.fresh (.refl _) unseen (.refl _) (fun _ member _ => member) ?_) rounds⟩
    rw [steps]

theorem mem_closure {todo : List String} {id : String} :
    id ∈ graph.closure step todo [] ↔ ∃ first ∈ todo, ReflTransGen (graph.Steps step) first id := by
  obtain ⟨count, rounds⟩ := graph.closure_rounds step todo []
  exact ((covers_start todo).rounds rounds).mem_seen_iff rfl

theorem Rounds.seen_subset {count : Nat} {todo : List String} (rounds : graph.Rounds step count ⟨todo, []⟩ search) :
    search.seen ⊆ graph.closure step todo [] := by
  intro id member
  exact mem_closure.2 (((covers_start todo).rounds rounds).sound id (Or.inl member))

/-- Every search that is over has seen what the closure has, whatever the order of its rounds. -/
theorem Rounds.mem_seen_iff {count : Nat} {todo : List String} (rounds : graph.Rounds step count ⟨todo, []⟩ search)
    (finished : search.todo = []) {id : String} : id ∈ search.seen ↔ id ∈ graph.closure step todo [] := by
  rw [mem_closure]
  exact ((covers_start todo).rounds rounds).mem_seen_iff finished

end Finding

end Graph

end CallChart
