import CallChart.Proofs.Faithfulness

/-! When a diagram can lead in circles. Along an edge that is not drawn as a loop's return, the walk has gone
forward, unless the edge comes back to a copy that was told for the same caller before. Positions grow
along forward edges, so a way round passes such a copy, or an id that two occurrences share. -/

namespace CallChart

open Relation

namespace Narrative

variable {narrative : Narrative}

def Before (narrative : Narrative) (first last : String) : Prop :=
  ∃ start stop : Nat, start < stop ∧ narrative.ids[start]? = some first ∧ narrative.ids[stop]? = some last

def Ambiguous (narrative : Narrative) (id : String) : Prop := narrative.Before id id

theorem index_unique {id : String} (clear : ¬ narrative.Ambiguous id) {first second : Nat}
    (here : narrative.ids[first]? = some id) (there : narrative.ids[second]? = some id) : first = second := by
  rcases Nat.lt_trichotomy first second with before | same | after
  · exact absurd ⟨first, second, before, here, there⟩ clear
  · exact same
  · exact absurd ⟨second, first, after, there, here⟩ clear

theorem Before.trans {first middle last : String} (early : narrative.Before first middle)
    (late : narrative.Before middle last) (clear : ¬ narrative.Ambiguous middle) : narrative.Before first last := by
  obtain ⟨start, here, before, begins, reaches⟩ := early
  obtain ⟨there, stop, after, leaves, ends⟩ := late
  obtain rfl := index_unique clear reaches leaves
  exact ⟨start, stop, Nat.lt_trans before after, begins, ends⟩

theorem not_ambiguous_of_nodup (distinct : narrative.ids.Nodup) (id : String) : ¬ narrative.Ambiguous id := by
  rintro ⟨first, second, before, here, there⟩
  have same := (List.getElem?_inj (List.getElem?_eq_some_iff.1 here).1 distinct).1 (here.trans there.symm)
  omega

theorem ids_getElem? {index : Nat} {name : String} {node : Node} (placed : narrative.roster[index]? = some (name, node)) :
    narrative.ids[index]? = some name := by
  rw [ids_eq_roster, List.getElem?_map, placed]
  rfl

theorem edges_sound {edge : Edge} (drawn : edge ∈ narrative.edges) :
    ∃ (position : Nat) (occurrence : Occurrence), narrative.occurrences[position]? = some occurrence ∧
      edge.source = occurrence.id ∧ edge.target ∈ occurrence.next ∧
      edge.loopBack = narrative.returnsTo edge.target position := by
  obtain ⟨⟨occurrence, position⟩, listed, member⟩ := List.mem_flatMap.1 (mem_of_mem_distinctOn drawn)
  obtain ⟨target, follows, rfl⟩ := List.mem_map.1 member
  exact ⟨position, occurrence, by simpa using List.mk_mem_zipIdx_iff_getElem?.1 listed, rfl, follows, rfl⟩

/-- A clear id stands for the one occurrence that has it. -/
theorem get?_of_roster {name : String} (clear : ¬ narrative.Ambiguous name) {index : Nat} {node : Node}
    (placed : narrative.roster[index]? = some (name, node)) :
    narrative.position? name = some index ∧ ∃ occurrence, narrative.get? name = some occurrence ∧ occurrence.node = node := by
  have present : name ∈ narrative.ids := mem_ids.2 ⟨node, List.mem_of_getElem? placed⟩
  obtain ⟨last, found⟩ := Option.isSome_iff_exists.1 (position?_isSome.2 present)
  obtain ⟨⟨occurrence, located, named⟩, _⟩ := position?_some found
  have there : narrative.ids[last]? = some name := by simp [ids, located, named]
  obtain rfl := index_unique clear (ids_getElem? placed) there
  refine ⟨found, occurrence, by simp [get?, found, located], ?_⟩
  rw [roster, List.getElem?_map, located] at placed
  exact (Prod.mk.inj (Option.some.inj placed)).2

theorem position?_of_nodup (distinct : narrative.ids.Nodup) {index : Nat} {occurrence : Occurrence}
    (located : narrative.occurrences[index]? = some occurrence) : narrative.position? occurrence.id = some index := by
  have placed : narrative.roster[index]? = some (occurrence.id, occurrence.node) := by simp [roster, located]
  exact (get?_of_roster (not_ambiguous_of_nodup distinct _) placed).1

/-- Going back to a loop under a clear id is drawn as a loop's return. -/
theorem returnsTo_of_loop {target : String} (clear : ¬ narrative.Ambiguous target) {index position : Nat} {goal : Node}
    (placed : narrative.roster[index]? = some (target, goal)) (loop : goal.kind = .loop) (back : index ≤ position) :
    narrative.returnsTo target position = true := by
  obtain ⟨found, occurrence, located, same⟩ := get?_of_roster clear placed
  simp [returnsTo, found, located, same, loop, back]

end Narrative

namespace Graph

variable {graph : Graph} {narrative : Narrative}

/-- A node that is called but told once only is a loop. -/
theorem Valid.loop_of_called (valid : graph.Valid) (consistent : graph.Consistent) {caller : String} {node : Node}
    (found : graph.node? node.id = some node) (call : graph.Calls caller node.id)
    (single : node.kind.duplicable = false) : node.kind = .loop := by
  have kind := kind?_eq_some_iff.2 ⟨node, found, rfl⟩
  cases shape : node.kind with
  | start => exact absurd (shape ▸ kind) (valid.kind?_callee consistent call)
  | loop => rfl
  | normal | condition | conditionElse => simp [shape, Kind.duplicable] at single

theorem Crowded.callers {id : String} (crowded : graph.Crowded id) (consistent : graph.Consistent) :
    1 < (graph.callers id).length := by
  obtain ⟨_, first, second, different, one, two⟩ := crowded
  have here := (consistent.agree first id).1 one.2
  have there := (consistent.agree second id).1 two.2
  by_contra few
  match listed : graph.callers id with
  | [] => simp [listed] at here
  | [only] => simp_all
  | _ :: _ :: _ => simp [listed] at few

/-- A paragraph that calls another one is called first by the start node and then by a third paragraph. -/
def returning : GraphDoc := ⟨[
  .brief "MAIN" .start [] ["OPEN", "SEND"],
  .brief "OPEN" .normal ["MAIN", "SEND"] ["LOCK"],
  .brief "LOCK" .normal ["OPEN"] [],
  .brief "SEND" .normal ["MAIN"] ["OPEN"]]⟩

end Graph

end CallChart
