/-! Lists in which the first of several elements with one key stands for all of them. -/

namespace CallChart

/-- Keeps the first of the elements that share a key, given the keys met before. -/
def distinctOn {α β : Type} [DecidableEq β] (key : α → β) (met : List β) : List α → List α
  | [] => []
  | first :: rest =>
    if key first ∈ met then distinctOn key met rest
    else first :: distinctOn key (key first :: met) rest

section

variable {α β : Type} [DecidableEq β] {key : α → β} {met : List β} {items : List α}

theorem mem_of_mem_distinctOn {item : α} (kept : item ∈ distinctOn key met items) : item ∈ items := by
  induction items generalizing met with
  | nil => cases kept
  | cons first rest ih =>
    unfold distinctOn at kept
    split at kept
    · exact List.mem_cons_of_mem _ (ih kept)
    · rcases List.mem_cons.1 kept with rfl | later
      · exact List.mem_cons_self
      · exact List.mem_cons_of_mem _ (ih later)

theorem mem_keys_distinctOn {value : β} :
    value ∈ (distinctOn key met items).map key ↔ value ∈ items.map key ∧ value ∉ met := by
  induction items generalizing met with
  | nil => simp [distinctOn]
  | cons first rest ih =>
    unfold distinctOn
    by_cases known : key first ∈ met
    · rw [if_pos known, ih, List.map_cons, List.mem_cons]
      constructor
      · exact fun both => ⟨Or.inr both.1, both.2⟩
      · intro both
        exact ⟨both.1.resolve_left fun same => both.2 (same ▸ known), both.2⟩
    · rw [if_neg known, List.map_cons, List.mem_cons, ih, List.map_cons, List.mem_cons, List.mem_cons]
      by_cases here : value = key first
      · simp [here, known]
      · simp [here]

theorem nodup_keys_distinctOn : ((distinctOn key met items).map key).Nodup := by
  induction items generalizing met with
  | nil => exact .nil
  | cons first rest ih =>
    unfold distinctOn
    split
    · exact ih
    · rw [List.map_cons, List.nodup_cons]
      refine ⟨fun again => ?_, ih⟩
      exact (mem_keys_distinctOn.1 again).2 List.mem_cons_self

theorem mem_distinctOn {item : α} (member : item ∈ items) (fresh : key item ∉ met)
    (alone : ∀ other ∈ items, key other = key item → other = item) : item ∈ distinctOn key met items := by
  have listed : key item ∈ (distinctOn key met items).map key :=
    mem_keys_distinctOn.2 ⟨List.mem_map_of_mem member, fresh⟩
  obtain ⟨other, kept, same⟩ := List.mem_map.1 listed
  rw [← alone other (mem_of_mem_distinctOn kept) same]
  exact kept

theorem ne_key_of_mem_distinctOn {value : β} {item : α} (known : value ∈ met)
    (kept : item ∈ distinctOn key met items) : value ≠ key item := by
  intro same
  exact (mem_keys_distinctOn.1 (List.mem_map_of_mem kept)).2 (same ▸ known)

/-- What is kept is the first with its key. -/
theorem exists_first_of_mem_distinctOn {item : α} (kept : item ∈ distinctOn key met items) :
    ∃ front back, items = front ++ item :: back ∧ ∀ other ∈ front, key other ≠ key item := by
  induction items generalizing met with
  | nil => cases kept
  | cons first rest ih =>
    have later : ∀ {met}, key first ∈ met → item ∈ distinctOn key met rest →
        ∃ front back, first :: rest = front ++ item :: back ∧ ∀ other ∈ front, key other ≠ key item := by
      intro met known among
      obtain ⟨front, back, split, fresh⟩ := ih among
      refine ⟨first :: front, back, congrArg _ split, ?_⟩
      exact List.forall_mem_cons.2 ⟨ne_key_of_mem_distinctOn known among, fresh⟩
    unfold distinctOn at kept
    split at kept
    · next known => exact later known kept
    · rcases List.mem_cons.1 kept with rfl | among
      · exact ⟨[], rest, rfl, nofun⟩
      · exact later List.mem_cons_self among

/-- What is kept stands in the order in which the keys came up. -/
theorem pairwise_distinctOn : (distinctOn key met items).Pairwise fun earlier later =>
    ∀ front item back, items = front ++ item :: back → key item = key later →
      ∃ other ∈ front, key other = key earlier := by
  induction items generalizing met with
  | nil => exact .nil
  | cons first rest ih =>
    have longer : ∀ {met}, key first ∈ met → (distinctOn key met rest).Pairwise fun earlier later =>
        ∀ front item back, first :: rest = front ++ item :: back → key item = key later →
          ∃ other ∈ front, key other = key earlier := by
      intro met known
      refine (@ih met).imp_of_mem fun {earlier later} _ kept ordered front item back split same => ?_
      rcases List.cons_eq_append_iff.1 split with ⟨_, here⟩ | ⟨front, rfl, among⟩
      · obtain ⟨rfl, _⟩ := List.cons.inj here
        exact absurd same (ne_key_of_mem_distinctOn known kept)
      · obtain ⟨other, member, equal⟩ := ordered front item back among same
        exact ⟨other, List.mem_cons_of_mem _ member, equal⟩
    unfold distinctOn
    split
    · next known => exact longer known
    · refine List.pairwise_cons.2 ⟨fun later kept front item back split same => ?_, longer List.mem_cons_self⟩
      rcases List.cons_eq_append_iff.1 split with ⟨_, here⟩ | ⟨front, rfl, _⟩
      · obtain ⟨rfl, _⟩ := List.cons.inj here
        exact absurd same (ne_key_of_mem_distinctOn List.mem_cons_self kept)
      · exact ⟨first, List.mem_cons_self, rfl⟩

end

end CallChart
