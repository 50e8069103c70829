import Mathlib.Data.List.Permutation
import CallChart.Proofs.Documents
import CallChart.Proofs.Narration

/-! Under which ids nodes are told: a node under its own id at most once, and its further copies under that
id with the numbers from one on. Numbered ids of two nodes never meet, since a number has no
underscore; so the ids of a narrative are distinct unless a numbered id is also the id of a node. -/

namespace CallChart

def copyName (id : String) (number : Nat) : String := id ++ "_" ++ number.repr

/-- The last mark divides a list in one way only. -/
theorem divided_unique {α : Type} {mark : α} {front back other rest : List α} (last : mark ∉ back)
    (final : mark ∉ rest) (same : front ++ mark :: back = other ++ mark :: rest) : front = other ∧ back = rest := by
  rcases List.append_eq_append_iff.1 same with ⟨middle, rfl, split⟩ | ⟨middle, rfl, split⟩
  all_goals
    cases middle with
    | nil => simp_all
    | cons first middle =>
      obtain ⟨rfl, rfl⟩ := List.cons_eq_cons.1 split
      simp at last final

theorem copyName_inj {first second : String} {number other : Nat}
    (same : copyName first number = copyName second other) : first = second ∧ number = other := by
  have letters := congrArg String.toList same
  simp only [copyName, String.toList_append, Nat.toList_repr, List.append_assoc] at letters
  obtain ⟨names, digits⟩ := divided_unique Nat.underscore_not_in_toDigits Nat.underscore_not_in_toDigits letters
  refine ⟨String.toList_inj.1 names, ?_⟩
  have numbers := congrArg (fun digits => Nat.ofDigitChars 10 digits 0) digits
  simpa using numbers

theorem copyName_ne (id : String) (number : Nat) : copyName id number ≠ id := by
  intro same
  have lengths := congrArg String.length same
  have digits : 0 < number.repr.length := Nat.length_repr_pos
  simp only [copyName, String.length_append] at lengths
  omega

def copies (roster : List (String × Node)) (id : String) : List (String × Node) :=
  roster.filter fun entry => entry.2.id = id && entry.1 ≠ id

theorem copies_append (roster : List (String × Node)) (entry : String × Node) (id : String) :
    copies (roster ++ [entry]) id =
      if entry.2.id = id ∧ entry.1 ≠ id then copies roster id ++ [entry] else copies roster id := by
  rw [copies, List.filter_append]
  split
  · next renamed => rw [List.filter_cons_of_pos (by simpa using renamed), List.filter_nil, copies]
  · next plain => rw [List.filter_cons_of_neg (by simpa using plain), List.filter_nil, List.append_nil, copies]

theorem Narrative.renamed_eq_copies (narrative : Narrative) (id : String) :
    narrative.renamed id = (copies narrative.roster id).length := by
  rw [renamed_eq_roster, List.countP_eq_length_filter, copies]

namespace Graph

variable {graph : Graph} {shared : List String}

structure Named (graph : Graph) (roster : List (String × Node)) : Prop where
  known : ∀ name node, (name, node) ∈ roster → graph.contains node.id = true
  own : roster.Pairwise fun first second => first.1 = first.2.id → second.1 = second.2.id → first.1 ≠ second.1
  numbered : ∀ id, (copies roster id).map Prod.fst =
    (List.range (copies roster id).length).map fun index => copyName id (index + 1)

theorem named_nil (graph : Graph) : graph.Named [] := ⟨nofun, .nil, fun _ => rfl⟩

private theorem nextId_cases (shared : List String) (walk : Walk) (node : Node) :
    (walk.nextId shared node = node.id ∧ (node.kind.duplicable = false ∨ node.id ∉ walk.told.ids)) ∨
      walk.nextId shared node = copyName node.id ((copies walk.told.roster node.id).length + 1) := by
  rw [← Narrative.renamed_eq_copies, ← Narrative.contains_iff, copyName]
  unfold Walk.nextId
  split
  · next plain =>
    refine Or.inl ⟨rfl, ?_⟩
    simp only [Bool.or_eq_true, Bool.and_eq_true, Bool.not_eq_true'] at plain
    exact plain.imp_right fun unused => by simp [unused.1]
  · exact Or.inr rfl

private theorem Named.known_append {roster : List (String × Node)} {node : Node} (named : graph.Named roster)
    (found : graph.node? node.id = some node) (name : String) :
    ∀ other told, (other, told) ∈ roster ++ [(name, node)] → graph.contains told.id = true := by
  intro other told member
  rcases List.mem_append.1 member with old | new
  · exact named.known other told old
  · cases List.mem_singleton.1 new
    exact contains_iff.2 ⟨_, found⟩

/-- A node may be told under its own id where no telling has that id as its own. -/
theorem Named.tell_own {roster : List (String × Node)} {node : Node} (named : graph.Named roster)
    (found : graph.node? node.id = some node) (unused : ∀ other, (node.id, other) ∈ roster → node.id ≠ other.id) :
    graph.Named (roster ++ [(node.id, node)]) := by
  refine ⟨named.known_append found _, List.pairwise_append.2 ⟨named.own, List.pairwise_singleton _ _, ?_⟩, fun id => ?_⟩
  · intro entry member last singleton own _ same
    cases List.mem_singleton.1 singleton
    obtain ⟨name, other⟩ := entry
    cases same
    exact unused other member own
  · rw [copies_append, if_neg fun renamed => renamed.2 renamed.1]
    exact named.numbered id

/-- The next number is always free. -/
theorem Named.tell_copy {roster : List (String × Node)} {node : Node} (named : graph.Named roster)
    (found : graph.node? node.id = some node) :
    graph.Named (roster ++ [(copyName node.id ((copies roster node.id).length + 1), node)]) := by
  refine ⟨named.known_append found _, List.pairwise_append.2 ⟨named.own, List.pairwise_singleton _ _, ?_⟩, fun id => ?_⟩
  · intro entry _ last singleton _ own
    cases List.mem_singleton.1 singleton
    exact absurd own (copyName_ne _ _)
  · rw [copies_append]
    split
    · next here =>
      obtain ⟨rfl, _⟩ := here
      rw [List.length_append, List.length_singleton, List.range_succ, List.map_append, List.map_append,
        named.numbered node.id]
      rfl
    · exact named.numbered id

theorem Named.tell {walk : Walk} {node : Node} (named : graph.Named walk.told.roster)
    (found : graph.node? node.id = some node)
    (unsettled : node.kind.duplicable = true ∨ walk.told.tells node.id = false) :
    graph.Named (walk.told.roster ++ [(walk.nextId shared node, node)]) := by
  rcases nextId_cases shared walk node with ⟨name, unused⟩ | name
  · rw [name]
    apply named.tell_own found
    intro other member own
    rcases unused with single | unused
    · -- A node that is told once only has not been told before.
      have told := Narrative.tells_iff.2 ⟨_, other, member, own.symm⟩
      simp [single, told] at unsettled
    · exact unused (Narrative.mem_ids.2 ⟨other, member⟩)
  · rw [name]
    exact named.tell_copy found

theorem Named.number {roster : List (String × Node)} {name : String} {node : Node} (named : graph.Named roster)
    (member : (name, node) ∈ roster) (renamed : name ≠ node.id) :
    ∃ number, 0 < number ∧ number ≤ (copies roster node.id).length ∧ name = copyName node.id number := by
  have listed : name ∈ (copies roster node.id).map Prod.fst :=
    List.mem_map.2 ⟨(name, node), List.mem_filter.2 ⟨member, by simpa using renamed⟩, rfl⟩
  rw [named.numbered node.id] at listed
  obtain ⟨index, inside, rfl⟩ := List.mem_map.1 listed
  exact ⟨index + 1, Nat.succ_pos _, List.mem_range.1 inside, rfl⟩

theorem Named.copy {roster : List (String × Node)} {id : String} {number : Nat} (named : graph.Named roster)
    (positive : 0 < number) (used : number ≤ (copies roster id).length) :
    ∃ node, (copyName id number, node) ∈ roster ∧ node.id = id := by
  have listed : copyName id number ∈ (copies roster id).map Prod.fst := by
    rw [named.numbered id]
    exact List.mem_map.2 ⟨number - 1, List.mem_range.2 (by omega), by rw [Nat.sub_add_cancel positive]⟩
  obtain ⟨⟨name, node⟩, inside, rfl⟩ := List.mem_map.1 listed
  obtain ⟨member, renamed⟩ := List.mem_filter.1 inside
  simp only [Bool.and_eq_true, decide_eq_true_eq] at renamed
  exact ⟨node, member, renamed.1⟩

private theorem Named.copies_pairwise {roster : List (String × Node)} (named : graph.Named roster) (id : String) :
    roster.Pairwise fun first second => first.2.id = id → first.1 ≠ id → second.2.id = id → second.1 ≠ id →
      first.1 ≠ second.1 := by
  have distinct : ((copies roster id).map Prod.fst).Nodup := by
    rw [named.numbered id]
    refine (List.nodup_range).map fun first second same => ?_
    have numbers := (copyName_inj same).2
    omega
  have apart := List.pairwise_filter.1 (List.pairwise_map.1 distinct)
  refine apart.imp fun {first second} apart same renamed other changed => ?_
  exact apart (by simp [same, renamed]) (by simp [other, changed])

/-- The ids are distinct exactly when no node is told under its own id where that id is in use as a
numbered one. -/
theorem Named.nodup_iff {narrative : Narrative} (named : graph.Named narrative.roster) :
    narrative.ids.Nodup ↔ ∀ name node, (name, node) ∈ narrative.roster → name = node.id →
      ∀ other number, 0 < number → number ≤ narrative.renamed other → name ≠ copyName other number := by
  simp only [Narrative.renamed_eq_copies, Narrative.ids_eq_roster]
  constructor
  · rintro distinct name node member own other number positive used rfl
    obtain ⟨copy, inside, rfl⟩ := named.copy positive used
    cases List.inj_on_of_nodup_map distinct member inside rfl
    exact copyName_ne _ _ own
  · intro apart
    rw [List.Nodup, List.pairwise_map, List.pairwise_iff_getElem]
    intro first second inside within order same
    have left := List.getElem_mem inside
    have right := List.getElem_mem within
    by_cases plain : narrative.roster[first].1 = narrative.roster[first].2.id
    · by_cases other : narrative.roster[second].1 = narrative.roster[second].2.id
      · exact List.pairwise_iff_getElem.1 named.own first second inside within order plain other same
      · obtain ⟨number, positive, used, copy⟩ := named.number right other
        exact apart _ _ left plain _ number positive used (same.trans copy)
    · obtain ⟨number, positive, used, copy⟩ := named.number left plain
      by_cases other : narrative.roster[second].1 = narrative.roster[second].2.id
      · exact apart _ _ right other _ number positive used (same.symm.trans copy)
      · -- Numbered ids that agree are ids of one node.
        obtain ⟨_, _, _, again⟩ := named.number right other
        have node := (copyName_inj (copy.symm.trans (same.trans again))).1
        exact List.pairwise_iff_getElem.1 (named.copies_pairwise _) first second inside within order rfl plain node.symm
          (node ▸ other) same

/-- No node's id is a numbered id of a node. -/
def DistinctNames (graph : Graph) : Prop :=
  ∀ first second, graph.contains first = true → graph.contains second = true →
    ∀ number, 0 < number → first ≠ copyName second number

theorem Named.nodup {narrative : Narrative} (named : graph.Named narrative.roster) (distinct : graph.DistinctNames) :
    narrative.ids.Nodup := by
  refine named.nodup_iff.2 ?_
  rintro name node member rfl other number positive used
  rw [Narrative.renamed_eq_copies] at used
  obtain ⟨copy, inside, rfl⟩ := named.copy positive used
  exact distinct _ _ (named.known _ node member) (named.known _ copy inside) number positive

theorem DistinctNames.mono {smaller : Graph} (distinct : graph.DistinctNames)
    (fewer : ∀ id, smaller.contains id = true → graph.contains id = true) : smaller.DistinctNames := by
  intro first second known present
  exact distinct first second (fewer first known) (fewer second present)

/-- A number adds nothing but an underscore and digits to an id. -/
theorem Named.plain {char : Char} {narrative : Narrative} (named : graph.Named narrative.roster)
    (plain : ∀ id, graph.contains id = true → char ∉ id.toList) {name : String} (member : name ∈ narrative.ids)
    (mark : char ≠ '_' := by decide) (letter : char.isDigit = false := by decide) : char ∉ name.toList := by
  obtain ⟨node, listed⟩ := Narrative.mem_ids.1 member
  have bare := plain node.id (named.known name node listed)
  by_cases own : name = node.id
  · rw [own]
    exact bare
  · obtain ⟨number, _, _, copy⟩ := named.number listed own
    have digits : char ∉ Nat.toDigits 10 number := by
      intro digit
      have numeric := Nat.isDigit_of_mem_toDigits (by omega) (by omega) digit
      rw [letter] at numeric
      cases numeric
    rw [copy, copyName, String.toList_append, String.toList_append, Nat.toList_repr, List.append_assoc]
    simp [bare, digits, mark]

theorem named_of_narrate {narrative : Narrative} (told : graph.narrate = .ok narrative) :
    graph.Named narrative.roster := by
  obtain ⟨entry, visit, walk, _, visited, rfl⟩ := narrate_eq_ok told
  have kept : Law.Kept graph graph.shared .any (.ofRoster graph.Named) :=
    Law.ofRoster_kept fun walk node found unsettled named => named.tell found unsettled
  exact kept.visit visited graph.named_nil

theorem distinctNames_of_plain (plain : ∀ id ∈ graph.ids, '_' ∉ id.toList) : graph.DistinctNames := by
  rintro first second inside _ number _ rfl
  have marked : '_' ∈ (copyName second number).toList := by simp [copyName]
  exact plain _ (contains_iff_mem_ids.1 inside) marked

/-- A checked graph is told under distinct ids exactly when no node is told under its own id where that id
is in use for a numbered copy. Distinct names are enough for that. -/
theorem ids_nodup_iff (checked : graph.check = .ok ()) :
    ∃ narrative, graph.narrate = .ok narrative ∧
      (narrative.ids.Nodup ↔ ∀ occurrence ∈ narrative.occurrences, occurrence.id = occurrence.node.id →
        ∀ other number, 0 < number → number ≤ narrative.renamed other → occurrence.id ≠ copyName other number) ∧
      (graph.DistinctNames → narrative.ids.Nodup) := by
  obtain ⟨narrative, told⟩ := (check_eq_ok_iff.1 checked).narrate
  have named := named_of_narrate told
  refine ⟨narrative, told, ?_, named.nodup⟩
  rw [named.nodup_iff]
  simp only [Narrative.roster, List.mem_map, Prod.mk.injEq]
  constructor
  · intro apart occurrence member
    exact apart _ _ ⟨occurrence, member, rfl, rfl⟩
  · rintro apart _ _ ⟨occurrence, member, rfl, rfl⟩
    exact apart occurrence member

/-- Two nodes share a paragraph. -/
def sharing : GraphDoc := ⟨[
  .brief "MAIN" .start [] ["READ", "SAVE", "SEND"],
  .brief "READ" .normal ["MAIN"] [],
  .brief "SAVE" .normal ["MAIN", "SEND"] [],
  .brief "SEND" .normal ["MAIN"] ["SAVE"]]⟩

theorem sharing_nodup :
    ∃ graph narrative, sharing.toGraph = .ok graph ∧ graph.check = .ok () ∧ graph.DistinctNames ∧
      graph.narrate = .ok narrative ∧ narrative.ids = ["MAIN", "READ", "SAVE_1", "SEND", "SAVE_2"] ∧
      narrative.ids.Nodup := by
  obtain ⟨graph, read⟩ : ∃ graph, sharing.toGraph = .ok graph := ⟨_, rfl⟩
  obtain ⟨_, checked⟩ := GraphDoc.built_toGraph read
  obtain ⟨narrative, told, _, nodup⟩ := ids_nodup_iff checked
  have nodes : sharing.toGraph.map Graph.ids = .ok ["MAIN", "READ", "SAVE", "SEND"] := rfl
  have listed : (sharing.toGraph.bind Graph.narrate).map Narrative.ids =
      .ok ["MAIN", "READ", "SAVE_1", "SEND", "SAVE_2"] := by cbv
  simp only [read, told, Except.map, Except.bind, Except.ok.injEq] at nodes listed
  have distinct : graph.DistinctNames := distinctNames_of_plain (by rw [nodes]; decide)
  exact ⟨graph, narrative, read, checked, distinct, told, listed, nodup distinct⟩

/-- The same, but a paragraph has the id that the first copy of the shared one gets. -/
def clashing : GraphDoc := ⟨[
  .brief "MAIN" .start [] ["SAVE_1", "SAVE", "SEND"],
  .brief "SAVE_1" .normal ["MAIN"] [],
  .brief "SAVE" .normal ["MAIN", "SEND"] [],
  .brief "SEND" .normal ["MAIN"] ["SAVE"]]⟩

/-- Two occurrences get one id. -/
theorem clashing_ids :
    ∃ graph narrative, clashing.toGraph = .ok graph ∧ graph.check = .ok () ∧ graph.narrate = .ok narrative ∧
      narrative.ids = ["MAIN", "SAVE_1", "SAVE_1", "SEND", "SAVE_2"] ∧ ¬ narrative.ids.Nodup := by
  obtain ⟨graph, read⟩ : ∃ graph, clashing.toGraph = .ok graph := ⟨_, rfl⟩
  obtain ⟨_, checked⟩ := GraphDoc.built_toGraph read
  obtain ⟨narrative, told⟩ := (check_eq_ok_iff.1 checked).narrate
  have listed : (clashing.toGraph.bind Graph.narrate).map Narrative.ids =
      .ok ["MAIN", "SAVE_1", "SAVE_1", "SEND", "SAVE_2"] := by cbv
  simp only [read, told, Except.map, Except.bind, Except.ok.injEq] at listed
  exact ⟨graph, narrative, read, checked, told, listed, by rw [listed]; decide⟩

end Graph

end CallChart
