/-! Finite maps that remember the order in which their keys came in. Keys are distinct by
construction, so looking a key up and scanning the entries give the same answers. -/

namespace CallChart

structure OrderedMap (κ α : Type) where
  entries : List (κ × α)
  nodup : (entries.map Prod.fst).Nodup
deriving DecidableEq

namespace OrderedMap

variable {κ α β : Type}

@[ext] theorem ext {first second : OrderedMap κ α} (same : first.entries = second.entries) :
    first = second := by
  cases first; cases second; simp_all

def empty : OrderedMap κ α := ⟨[], List.nodup_nil⟩

instance : EmptyCollection (OrderedMap κ α) := ⟨empty⟩

instance : Inhabited (OrderedMap κ α) := ⟨empty⟩

def keys (map : OrderedMap κ α) : List κ := map.entries.map Prod.fst

def size (map : OrderedMap κ α) : Nat := map.entries.length

def find? [DecidableEq κ] (map : OrderedMap κ α) (key : κ) : Option α :=
  (map.entries.find? (fun entry => entry.1 = key)).map Prod.snd

/-- Stores a value. A key that is there keeps its place; a new one goes to the end. -/
def insert [DecidableEq κ] (map : OrderedMap κ α) (key : κ) (value : α) : OrderedMap κ α :=
  if present : key ∈ map.keys then
    ⟨map.entries.map (fun entry => if entry.1 = key then (entry.1, value) else entry), by
      have unchanged : Prod.fst ∘ (fun entry : κ × α => if entry.1 = key then (entry.1, value) else entry)
          = Prod.fst := by
        funext entry
        simp only [Function.comp]
        split <;> rfl
      rw [List.map_map, unchanged]
      exact map.nodup⟩
  else
    ⟨map.entries ++ [(key, value)], by
      rw [List.map_append, List.nodup_append]
      refine ⟨map.nodup, by simp, ?_⟩
      intro first found second last equal
      simp only [List.map_cons, List.map_nil, List.mem_singleton] at last
      exact present (last ▸ equal ▸ found)⟩

def filterKeys (map : OrderedMap κ α) (keep : κ → Bool) : OrderedMap κ α :=
  ⟨map.entries.filter (fun entry => keep entry.1), by
    have kept : (map.entries.filter (fun entry => keep entry.1)).map Prod.fst
        = (map.entries.map Prod.fst).filter keep := by
      rw [List.filter_map]; rfl
    rw [kept]
    exact map.nodup.filter _⟩

def mapValues (map : OrderedMap κ α) (change : α → β) : OrderedMap κ β :=
  ⟨map.entries.map (fun entry => (entry.1, change entry.2)), by
    rw [List.map_map]
    exact map.nodup⟩

def ofList [DecidableEq κ] (entries : List (κ × α)) : OrderedMap κ α :=
  entries.foldl (fun map entry => map.insert entry.1 entry.2) empty

/-- Whether two maps have the same keys and, under each key, values that the test relates, in
whatever order. -/
def sameEntries [DecidableEq κ] (related : α → α → Bool) (first second : OrderedMap κ α) : Bool :=
  first.size == second.size &&
    first.entries.all (fun entry => (second.find? entry.1).any (related entry.2))

@[simp] theorem find?_empty [DecidableEq κ] (key : κ) : (empty : OrderedMap κ α).find? key = none := rfl

@[simp] theorem keys_empty : (empty : OrderedMap κ α).keys = [] := rfl

theorem find?_eq_none_iff [DecidableEq κ] {map : OrderedMap κ α} {key : κ} :
    map.find? key = none ↔ key ∉ map.keys := by
  simp only [find?, keys, Option.map_eq_none_iff, List.find?_eq_none, List.mem_map, decide_eq_true_eq]
  constructor
  · rintro absent ⟨entry, found, same⟩
    exact absent entry found same
  · intro absent entry found same
    exact absent ⟨entry, found, same⟩

theorem find?_of_mem [DecidableEq κ] {map : OrderedMap κ α} {entry : κ × α} (listed : entry ∈ map.entries) :
    map.find? entry.1 = some entry.2 := by
  obtain ⟨entries, nodup⟩ := map
  simp only [find?] at listed ⊢
  induction entries with
  | nil => cases listed
  | cons first rest ih =>
    obtain ⟨absent, nodup⟩ := List.nodup_cons.1 nodup
    rcases List.mem_cons.1 listed with rfl | later
    · simp
    · have different : first.1 ≠ entry.1 := by
        intro same
        exact absent (same ▸ List.mem_map_of_mem later)
      rw [List.find?_cons_of_neg (by simpa using different)]
      exact ih nodup later

theorem entries_eq_map_keys [DecidableEq κ] (map : OrderedMap κ α) (default : α) :
    map.entries = map.keys.map fun key => (key, (map.find? key).getD default) := by
  rw [keys, List.map_map]
  refine (List.map_id _).symm.trans (List.map_congr_left ?_)
  intro entry listed
  simp [find?_of_mem listed]

/-- A map is given by its keys and what is found under them. -/
theorem ext_getD [DecidableEq κ] {first second : OrderedMap κ α} (default : α) (keys : first.keys = second.keys)
    (found : ∀ key, (first.find? key).getD default = (second.find? key).getD default) : first = second := by
  apply ext
  rw [first.entries_eq_map_keys default, second.entries_eq_map_keys default, keys]
  apply List.map_congr_left
  intro key _
  rw [found]

private theorem entries_insert_of_absent [DecidableEq κ] {map : OrderedMap κ α} {key : κ} (absent : key ∉ map.keys)
    (value : α) : (map.insert key value).entries = map.entries ++ [(key, value)] := by
  rw [insert, dif_neg absent]

private theorem entries_foldl_insert [DecidableEq κ] {entries : List (κ × α)} {map : OrderedMap κ α}
    (distinct : ((map.entries ++ entries).map Prod.fst).Nodup) :
    (entries.foldl (fun map entry => map.insert entry.1 entry.2) map).entries = map.entries ++ entries := by
  induction entries generalizing map with
  | nil => simp
  | cons entry rest ih =>
    have absent : entry.1 ∉ map.keys := by
      intro present
      rw [List.map_append, List.nodup_append] at distinct
      exact distinct.2.2 entry.1 present entry.1 (by simp) rfl
    have grown := entries_insert_of_absent absent entry.2
    rw [List.foldl_cons, ih (by simpa [grown] using distinct), grown, List.append_assoc]
    rfl

theorem ofList_entries [DecidableEq κ] (map : OrderedMap κ α) : ofList map.entries = map :=
  ext (entries_foldl_insert (by simpa [empty] using map.nodup))

theorem keys_insert [DecidableEq κ] (map : OrderedMap κ α) (key : κ) (value : α) :
    (map.insert key value).keys = if key ∈ map.keys then map.keys else map.keys ++ [key] := by
  unfold insert
  split
  · simp only [keys, List.map_map]
    apply List.map_congr_left
    intro entry _
    simp only [Function.comp]
    split <;> rfl
  · simp [keys]

theorem mem_keys_insert [DecidableEq κ] {map : OrderedMap κ α} {key other : κ} {value : α} :
    other ∈ (map.insert key value).keys ↔ other = key ∨ other ∈ map.keys := by
  rw [keys_insert]
  split
  · next present =>
    constructor
    · exact Or.inr
    · intro either
      rcases either with rfl | old
      · exact present
      · exact old
  · simp [or_comm]

/-- A lookup after a store: the value stored, or what was there under another key. -/
theorem find?_insert [DecidableEq κ] (map : OrderedMap κ α) (key other : κ) (value : α) :
    (map.insert key value).find? other = if key = other then some value else map.find? other := by
  unfold insert
  split
  · next present =>
    simp only [find?, keys] at present ⊢
    obtain ⟨entries, nodup⟩ := map
    simp only at present ⊢
    clear nodup
    induction entries with
    | nil => simp at present
    | cons first rest ih =>
      by_cases here : first.1 = key
      · by_cases same : key = other
        · simp [here, same]
        · have unequal : first.1 ≠ other := fun equal => same (here ▸ equal)
          simp only [List.map_cons, here, if_true]
          rw [List.find?_cons_of_neg (by simpa using same), List.find?_cons_of_neg (by simpa using unequal)]
          by_cases later : key ∈ rest.map Prod.fst
          · exact ih later
          · rw [if_neg same]
            congr 2
            rw [List.map_congr_left (g := id), List.map_id]
            intro entry member
            have unlike : entry.1 ≠ key := fun equal => later (equal ▸ List.mem_map_of_mem member)
            simp [unlike]
      · have later : key ∈ rest.map Prod.fst := by
          simp only [List.map_cons, List.mem_cons] at present
          exact present.resolve_left (fun equal => here equal.symm)
        simp only [List.map_cons, if_neg here]
        by_cases found : first.1 = other
        · have unequal : key ≠ other := fun equal => here (found.trans equal.symm)
          simp [found, unequal]
        · rw [List.find?_cons_of_neg (by simpa using found), List.find?_cons_of_neg (by simpa using found)]
          exact ih later
  · next absent =>
    simp only [find?, List.find?_append, List.find?_singleton]
    by_cases same : key = other
    · have missing : map.entries.find? (fun entry => entry.1 = other) = none := by
        rw [List.find?_eq_none]
        intro entry member equal
        exact absent (same ▸ (decide_eq_true_eq.mp equal) ▸ List.mem_map_of_mem member)
      simp [missing, same]
    · cases found : map.entries.find? (fun entry => entry.1 = other) <;> simp [same]

@[simp] theorem keys_filterKeys (map : OrderedMap κ α) (keep : κ → Bool) :
    (map.filterKeys keep).keys = map.keys.filter keep := by
  simp only [keys, filterKeys, List.filter_map]
  rfl

theorem find?_filterKeys [DecidableEq κ] (map : OrderedMap κ α) (keep : κ → Bool) (key : κ) :
    (map.filterKeys keep).find? key = if keep key then map.find? key else none := by
  simp only [find?, filterKeys, List.find?_filter]
  split
  · next kept =>
    congr 2
    funext entry
    by_cases same : entry.1 = key <;> simp [same, kept]
  · next dropped =>
    rw [Option.map_eq_none_iff, List.find?_eq_none]
    intro entry _
    by_cases same : entry.1 = key <;> simp [same, dropped]

@[simp] theorem keys_mapValues (map : OrderedMap κ α) (change : α → β) :
    (map.mapValues change).keys = map.keys := by
  simp only [keys, mapValues, List.map_map]
  rfl

theorem find?_mapValues [DecidableEq κ] (map : OrderedMap κ α) (change : α → β) (key : κ) :
    (map.mapValues change).find? key = (map.find? key).map change := by
  simp only [find?, mapValues, List.find?_map, Option.map_map]
  rfl

end OrderedMap

end CallChart
