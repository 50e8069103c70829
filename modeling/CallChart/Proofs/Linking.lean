import CallChart.Narrative.Walk

/-! Two views of a narrative: who is told under which id, and which ids are linked. Telling a node adds to
the first and leaves the second alone; linking adds to the second and leaves the first alone. Neither
view asks whether two occurrences share an id. -/

namespace CallChart

section LastIndex

variable {α : Type} {test : α → Bool} {items : List α}

theorem lastIndex?_isSome : (lastIndex? test items).isSome ↔ ∃ item ∈ items, test item := by
  induction items with
  | nil => simp [lastIndex?]
  | cons first rest ih =>
    simp only [lastIndex?, List.mem_cons, exists_eq_or_imp, ← ih]
    cases lastIndex? test rest with
    | none => by_cases here : test first <;> simp [here]
    | some index => simp

theorem lastIndex?_some {index : Nat} (found : lastIndex? test items = some index) :
    (∃ item, items[index]? = some item ∧ test item) ∧
      ∀ later item, items[later]? = some item → test item → later ≤ index := by
  induction items generalizing index with
  | nil => cases found
  | cons first rest ih =>
    cases behind : lastIndex? test rest with
    | some last =>
      simp only [lastIndex?, behind, Option.some.injEq] at found
      subst index
      obtain ⟨⟨item, located, passes⟩, final⟩ := ih behind
      refine ⟨⟨item, by simpa using located, passes⟩, ?_⟩
      intro later other placed tested
      cases later with
      | zero => exact Nat.zero_le _
      | succ later => exact Nat.succ_le_succ (final later other (by simpa using placed) tested)
    | none =>
      simp only [lastIndex?, behind] at found
      split at found
      next here =>
        cases found
        refine ⟨⟨first, rfl, here⟩, ?_⟩
        intro later other placed tested
        cases later with
        | zero => exact Nat.le_refl _
        | succ later =>
          have member : other ∈ rest := List.mem_of_getElem? (by simpa using placed)
          have reached := lastIndex?_isSome.2 ⟨other, member, tested⟩
          simp [behind] at reached
      next => cases found

end LastIndex

namespace Narrative

/-- Who is told under which id, in order. -/
def roster (narrative : Narrative) : List (String × Node) :=
  narrative.occurrences.map fun occurrence => (occurrence.id, occurrence.node)

/-- An occurrence with the first id is followed by the second id. -/
def Linked (narrative : Narrative) (source target : String) : Prop :=
  ∃ occurrence ∈ narrative.occurrences, occurrence.id = source ∧ target ∈ occurrence.next

def Preceded (narrative : Narrative) (source target : String) : Prop :=
  ∃ occurrence ∈ narrative.occurrences, occurrence.id = target ∧ source ∈ occurrence.prev

def Names (narrative : Narrative) (side : Occurrence → OrderedSet String) (owner member : String) : Prop :=
  ∃ occurrence ∈ narrative.occurrences, occurrence.id = owner ∧ member ∈ side occurrence

variable {narrative : Narrative}

theorem names_iff_getElem? {side : Occurrence → OrderedSet String} {owner member : String} :
    narrative.Names side owner member ↔ ∃ (index : Nat) (occurrence : Occurrence),
      narrative.occurrences[index]? = some occurrence ∧ occurrence.id = owner ∧ member ∈ side occurrence := by
  simp only [Names, List.mem_iff_getElem?]
  constructor
  · rintro ⟨occurrence, ⟨index, placed⟩, named, inside⟩
    exact ⟨index, occurrence, placed, named, inside⟩
  · rintro ⟨index, occurrence, placed, named, inside⟩
    exact ⟨occurrence, ⟨index, placed⟩, named, inside⟩

theorem ids_eq_roster : narrative.ids = narrative.roster.map Prod.fst := by
  rw [ids, roster, List.map_map]
  rfl

theorem mem_ids {id : String} : id ∈ narrative.ids ↔ ∃ node, (id, node) ∈ narrative.roster := by
  simp [ids_eq_roster]

theorem contains_iff {id : String} : narrative.contains id ↔ id ∈ narrative.ids := by
  simp [contains, ids]

theorem tells_iff {id : String} : narrative.tells id ↔ ∃ name node, (name, node) ∈ narrative.roster ∧ node.id = id := by
  simp only [tells, roster, List.any_eq_true, decide_eq_true_eq, List.mem_map, Prod.mk.injEq]
  constructor
  · rintro ⟨occurrence, member, same⟩
    exact ⟨occurrence.id, occurrence.node, ⟨occurrence, member, rfl, rfl⟩, same⟩
  · rintro ⟨name, node, ⟨occurrence, member, rfl, rfl⟩, same⟩
    exact ⟨occurrence, member, same⟩

theorem renamed_eq_roster (id : String) :
    narrative.renamed id = narrative.roster.countP fun entry => entry.2.id = id && entry.1 ≠ id := by
  rw [renamed, roster, List.countP_map]
  rfl

theorem position?_isSome {id : String} : (narrative.position? id).isSome ↔ id ∈ narrative.ids := by
  simp [position?, lastIndex?_isSome, ids]

/-- An id stands for the last occurrence that has it. -/
theorem position?_some {id : String} {index : Nat} (found : narrative.position? id = some index) :
    (∃ occurrence, narrative.occurrences[index]? = some occurrence ∧ occurrence.id = id) ∧
      ∀ later occurrence, narrative.occurrences[later]? = some occurrence → occurrence.id = id → later ≤ index := by
  simpa using lastIndex?_some found

theorem getElem?_modify (id : String) (change : Occurrence → Occurrence) (index : Nat) :
    (narrative.modify id change).occurrences[index]? =
      if narrative.position? id = some index then narrative.occurrences[index]?.map change
      else narrative.occurrences[index]? := by
  unfold modify
  split
  · next last found =>
    rw [List.getElem?_modify, found]
    by_cases here : last = index
    · simp [here]
    · simp [here]
  · next absent => simp [absent]

theorem roster_modify (id : String) {change : Occurrence → Occurrence}
    (same : ∀ occurrence, (change occurrence).id = occurrence.id ∧ (change occurrence).node = occurrence.node) :
    (narrative.modify id change).roster = narrative.roster := by
  apply List.ext_getElem?
  intro index
  simp only [roster, List.getElem?_map, getElem?_modify]
  split
  · cases narrative.occurrences[index]? <;> simp [same]
  · rfl

private theorem names_modify {side : Occurrence → OrderedSet String} (id : String) {change : Occurrence → Occurrence}
    (same : ∀ occurrence, (change occurrence).id = occurrence.id ∧ side (change occurrence) = side occurrence)
    {owner member : String} :
    (narrative.modify id change).Names side owner member ↔ narrative.Names side owner member := by
  simp only [names_iff_getElem?, getElem?_modify]
  constructor
  · rintro ⟨index, occurrence, placed, rfl, inside⟩
    split at placed
    · obtain ⟨old, located, rfl⟩ := Option.map_eq_some_iff.1 placed
      exact ⟨index, old, located, (same old).1.symm, (same old).2 ▸ inside⟩
    · exact ⟨index, occurrence, placed, rfl, inside⟩
  · rintro ⟨index, occurrence, placed, rfl, inside⟩
    by_cases here : narrative.position? id = some index
    · refine ⟨index, change occurrence, ?_, (same occurrence).1, (same occurrence).2 ▸ inside⟩
      rw [if_pos here, placed, Option.map_some]
    · exact ⟨index, occurrence, by rw [if_neg here, placed], rfl, inside⟩

private theorem names_insert {side : Occurrence → OrderedSet String} (id added : String)
    {change : Occurrence → Occurrence}
    (grows : ∀ occurrence, (change occurrence).id = occurrence.id ∧
      side (change occurrence) = (side occurrence).insert added) {owner member : String} :
    (narrative.modify id change).Names side owner member ↔
      narrative.Names side owner member ∨ (owner = id ∧ member = added ∧ id ∈ narrative.ids) := by
  simp only [names_iff_getElem?, getElem?_modify]
  constructor
  · rintro ⟨index, occurrence, placed, rfl, inside⟩
    split at placed
    · next here =>
      obtain ⟨old, located, rfl⟩ := Option.map_eq_some_iff.1 placed
      rw [(grows old).2] at inside
      rcases OrderedSet.mem_insert.1 inside with before | new
      · exact Or.inl ⟨index, old, located, (grows old).1.symm, before⟩
      · obtain ⟨⟨last, there, named⟩, _⟩ := position?_some here
        obtain rfl : old = last := Option.some.inj (located.symm.trans there)
        exact Or.inr ⟨(grows old).1.trans named, new, position?_isSome.1 (by simp [here])⟩
    · exact Or.inl ⟨index, occurrence, placed, rfl, inside⟩
  · rintro (⟨index, occurrence, placed, rfl, inside⟩ | ⟨rfl, rfl, present⟩)
    · by_cases here : narrative.position? id = some index
      · refine ⟨index, change occurrence, ?_, (grows occurrence).1, ?_⟩
        · rw [if_pos here, placed, Option.map_some]
        · rw [(grows occurrence).2]
          exact OrderedSet.mem_insert.2 (Or.inl inside)
      · exact ⟨index, occurrence, by rw [if_neg here, placed], rfl, inside⟩
    · obtain ⟨index, here⟩ := Option.isSome_iff_exists.1 (position?_isSome.2 present)
      obtain ⟨⟨last, there, named⟩, _⟩ := position?_some here
      refine ⟨index, change last, ?_, (grows last).1.trans named, ?_⟩
      · rw [if_pos here, there, Option.map_some]
      · rw [(grows last).2]
        exact OrderedSet.mem_insert.2 (Or.inr rfl)

theorem ids_modify (id : String) {change : Occurrence → Occurrence}
    (same : ∀ occurrence, (change occurrence).id = occurrence.id ∧ (change occurrence).node = occurrence.node) :
    (narrative.modify id change).ids = narrative.ids := by
  rw [ids_eq_roster, roster_modify id same, ids_eq_roster]

@[simp] theorem roster_link (source target : String) : (narrative.link source target).roster = narrative.roster := by
  rw [link, roster_modify, roster_modify]
  · exact fun _ => ⟨rfl, rfl⟩
  · exact fun _ => ⟨rfl, rfl⟩

theorem linked_link {source target first second : String} :
    (narrative.link source target).Linked first second ↔
      narrative.Linked first second ∨ (first = source ∧ second = target ∧ source ∈ narrative.ids) := by
  change (narrative.link source target).Names Occurrence.next first second ↔
    narrative.Names Occurrence.next first second ∨ _
  rw [link, names_modify, names_insert source target]
  · exact fun _ => ⟨rfl, rfl⟩
  · exact fun _ => ⟨rfl, rfl⟩

theorem preceded_link {source target first second : String} :
    (narrative.link source target).Preceded first second ↔
      narrative.Preceded first second ∨ (second = target ∧ first = source ∧ target ∈ narrative.ids) := by
  change (narrative.link source target).Names Occurrence.prev second first ↔
    narrative.Names Occurrence.prev second first ∨ _
  rw [link, names_insert target source, names_modify, ids_modify]
  · exact fun _ => ⟨rfl, rfl⟩
  · exact fun _ => ⟨rfl, rfl⟩
  · exact fun _ => ⟨rfl, rfl⟩

theorem link_eq_linkAll (source target : String) : narrative.link source target = narrative.linkAll [source] target := rfl

@[simp] theorem roster_linkAll (sources : List String) (target : String) :
    (narrative.linkAll sources target).roster = narrative.roster := by
  induction sources generalizing narrative with
  | nil => rfl
  | cons source rest ih =>
    rw [linkAll, List.foldl_cons, ← linkAll, ih, roster_link]

theorem linked_linkAll {sources : List String} {target first second : String} :
    (narrative.linkAll sources target).Linked first second ↔
      narrative.Linked first second ∨ (first ∈ sources ∧ second = target ∧ first ∈ narrative.ids) := by
  induction sources generalizing narrative with
  | nil => simp [linkAll]
  | cons source rest ih =>
    have same : (narrative.link source target).ids = narrative.ids := by simp [ids_eq_roster]
    rw [linkAll, List.foldl_cons, ← linkAll, ih, linked_link, same, List.mem_cons]
    constructor
    · rintro ((before | ⟨rfl, rfl, present⟩) | ⟨listed, rfl, present⟩)
      · exact Or.inl before
      · exact Or.inr ⟨Or.inl rfl, rfl, present⟩
      · exact Or.inr ⟨Or.inr listed, rfl, present⟩
    · rintro (before | ⟨rfl | listed, rfl, present⟩)
      · exact Or.inl (Or.inl before)
      · exact Or.inl (Or.inr ⟨rfl, rfl, present⟩)
      · exact Or.inr ⟨listed, rfl, present⟩

end Narrative

namespace Walk

variable {walk : Walk}

@[simp] theorem roster_tell (name : String) (node : Node) :
    (walk.tell name node).told.roster = walk.told.roster ++ [(name, node)] := by
  simp [tell, Narrative.push, Narrative.roster]

private theorem names_tell {side : Occurrence → OrderedSet String} {name : String} {node : Node}
    (bare : side { id := name, node } = ∅) {owner member : String} :
    (walk.tell name node).told.Names side owner member ↔ walk.told.Names side owner member := by
  simp only [tell, Narrative.push, Narrative.Names, List.mem_append, List.mem_singleton]
  constructor
  · rintro ⟨occurrence, old | rfl, named, inside⟩
    · exact ⟨occurrence, old, named, inside⟩
    · rw [bare] at inside
      cases inside
  · rintro ⟨occurrence, old, named, inside⟩
    exact ⟨occurrence, Or.inl old, named, inside⟩

@[simp] theorem linked_tell {name source target : String} {node : Node} :
    (walk.tell name node).told.Linked source target ↔ walk.told.Linked source target :=
  names_tell rfl

@[simp] theorem preceded_tell {name source target : String} {node : Node} :
    (walk.tell name node).told.Preceded source target ↔ walk.told.Preceded source target :=
  names_tell rfl

@[simp] theorem told_note (node : Node) (caller : Option String) (id : String) :
    (walk.note node caller id).told = walk.told := by
  unfold note
  split
  · split <;> rfl
  · rfl

end Walk

namespace Graph

variable {node : Node} {id : String} {callees : List String} {ends : Ends} {walk : Walk}

/-- What remains once the callees are told is to link, so it tells nothing. -/
@[simp] theorem roster_finish : (finish node id callees ends walk).2.told.roster = walk.told.roster := by
  unfold finish
  split
  · split
    · rfl
    · exact Narrative.roster_linkAll _ _
  · rfl

@[simp] theorem reached_finish : (finish node id callees ends walk).2.reached = walk.reached := by
  unfold finish
  split
  · split <;> rfl
  · rfl

end Graph

end CallChart
