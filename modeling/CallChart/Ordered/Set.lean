/-! Finite sets that remember the order in which their members came in. Members are distinct by
construction, so a set is a list and its size is the list's length. -/

namespace CallChart

structure OrderedSet (α : Type) where
  toList : List α
  nodup : toList.Nodup
deriving DecidableEq

namespace OrderedSet

variable {α : Type}

@[ext] theorem ext {first second : OrderedSet α} (same : first.toList = second.toList) :
    first = second := by
  cases first; cases second; simp_all

def empty : OrderedSet α := ⟨[], List.nodup_nil⟩

instance : EmptyCollection (OrderedSet α) := ⟨empty⟩

instance : Inhabited (OrderedSet α) := ⟨empty⟩

instance : Membership α (OrderedSet α) := ⟨fun set member => member ∈ set.toList⟩

instance [DecidableEq α] (member : α) (set : OrderedSet α) : Decidable (member ∈ set) :=
  inferInstanceAs (Decidable (member ∈ set.toList))

def size (set : OrderedSet α) : Nat := set.toList.length

/-- Adds a new member at the end; a member that is there keeps its place. -/
def insert [DecidableEq α] (set : OrderedSet α) (member : α) : OrderedSet α :=
  if present : member ∈ set.toList then set
  else ⟨set.toList ++ [member], by
    rw [List.nodup_append]
    refine ⟨set.nodup, by simp, ?_⟩
    intro other found last equal same
    rw [List.mem_singleton] at equal
    exact present (equal ▸ same ▸ found)⟩

def filter (set : OrderedSet α) (keep : α → Bool) : OrderedSet α :=
  ⟨set.toList.filter keep, set.nodup.filter _⟩

/-- Whether two sets have the same members, in whatever order. -/
def sameMembers [DecidableEq α] (first second : OrderedSet α) : Bool :=
  first.size == second.size && first.toList.all (· ∈ second.toList)

@[simp] theorem mem_toList {member : α} {set : OrderedSet α} : member ∈ set.toList ↔ member ∈ set :=
  Iff.rfl

@[simp] theorem toList_empty : (empty : OrderedSet α).toList = [] := rfl

@[simp] theorem not_mem_empty (member : α) : member ∉ (empty : OrderedSet α) := by
  simp [← mem_toList]

theorem toList_insert [DecidableEq α] (set : OrderedSet α) (member : α) :
    (set.insert member).toList =
      if member ∈ set then set.toList else set.toList ++ [member] := by
  unfold insert
  split <;> simp_all [← mem_toList]

@[simp] theorem mem_insert [DecidableEq α] {set : OrderedSet α} {member other : α} :
    other ∈ set.insert member ↔ other ∈ set ∨ other = member := by
  rw [← mem_toList, toList_insert]
  split
  · next present =>
    constructor
    · exact Or.inl
    · rintro (found | rfl)
      · exact found
      · exact present
  · simp

@[simp] theorem toList_filter (set : OrderedSet α) (keep : α → Bool) :
    (set.filter keep).toList = set.toList.filter keep := rfl

@[simp] theorem mem_filter {set : OrderedSet α} {keep : α → Bool} {member : α} :
    member ∈ set.filter keep ↔ member ∈ set ∧ keep member := by
  simp [← mem_toList]

end OrderedSet

end CallChart
