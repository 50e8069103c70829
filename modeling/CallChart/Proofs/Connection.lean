import CallChart.Proofs.Faithfulness

/-! Narratives hang together. Every link joins two ids that are told and is recorded on both ends; and whatever is
told while a node is open can be reached from that node, since the node's open ends can be and the next
callee is linked from them. So everything can be reached from the start node, which nothing precedes. -/

namespace CallChart

open Relation

namespace Narrative

def Paired (narrative : Narrative) : Prop :=
  ∀ source target, narrative.Linked source target ↔ narrative.Preceded source target

def Leads (narrative : Narrative) : String → String → Prop := ReflTransGen narrative.Linked

def Threaded (narrative : Narrative) (start : Nat) (entry : String) : Prop :=
  ∀ index name node, start ≤ index → narrative.roster[index]? = some (name, node) → narrative.Leads entry name

def Follows (narrative : Narrative) (source target : Occurrence) : Prop :=
  source ∈ narrative.occurrences ∧ target ∈ narrative.occurrences ∧ target.id ∈ source.next

variable {narrative : Narrative}

theorem Paired.linkAll {sources : List String} {target : String} (paired : narrative.Paired)
    (leaves : ∀ source ∈ sources, source ∈ narrative.ids) (arrives : target ∈ narrative.ids) :
    (narrative.linkAll sources target).Paired := by
  induction sources generalizing narrative with
  | nil => exact paired
  | cons source rest ih =>
    have same : (narrative.link source target).ids = narrative.ids := by simp [ids_eq_roster]
    rw [Narrative.linkAll, List.foldl_cons, ← Narrative.linkAll]
    apply ih
    · intro first second
      have present := leaves source List.mem_cons_self
      rw [linked_link, preceded_link, paired first second]
      tauto
    · intro other member
      rw [same]
      exact leaves other (List.mem_cons_of_mem _ member)
    · rw [same]
      exact arrives

theorem Leads.mono {wider : Narrative} {first last : String} (path : narrative.Leads first last)
    (links : ∀ source target, narrative.Linked source target → wider.Linked source target) : wider.Leads first last :=
  ReflTransGen.mono links _ _ path

theorem threaded_rfl (entry : String) : narrative.Threaded narrative.roster.length entry := by
  intro index name node late placed
  have inside := (List.getElem?_eq_some_iff.1 placed).1
  omega

/-- Where ids are distinct, what is said of an id is said of its occurrence. -/
theorem names_iff_of_mem (distinct : narrative.ids.Nodup) {side : Occurrence → OrderedSet String} {occurrence : Occurrence}
    (member : occurrence ∈ narrative.occurrences) {id : String} :
    narrative.Names side occurrence.id id ↔ id ∈ side occurrence := by
  constructor
  · intro named
    obtain ⟨other, inside, same, listed⟩ := named
    rw [← List.inj_on_of_nodup_map distinct inside member same]
    exact listed
  · intro listed
    exact ⟨occurrence, member, rfl, listed⟩

theorem Paired.mem_next_iff (paired : narrative.Paired) (distinct : narrative.ids.Nodup) {source target : Occurrence}
    (leaves : source ∈ narrative.occurrences) (arrives : target ∈ narrative.occurrences) :
    target.id ∈ source.next ↔ source.id ∈ target.prev := by
  rw [← names_iff_of_mem distinct leaves, ← names_iff_of_mem distinct arrives]
  exact paired source.id target.id

theorem Paired.mem_ids (paired : narrative.Paired) {occurrence : Occurrence} (member : occurrence ∈ narrative.occurrences)
    {id : String} (linked : id ∈ occurrence.prev ∨ id ∈ occurrence.next) : id ∈ narrative.ids := by
  cases linked with
  | inl before =>
    obtain ⟨other, inside, rfl, _⟩ := (paired id occurrence.id).2 ⟨occurrence, member, rfl, before⟩
    exact List.mem_map_of_mem inside
  | inr after =>
    obtain ⟨other, inside, rfl, _⟩ := (paired occurrence.id id).1 ⟨occurrence, member, rfl, after⟩
    exact List.mem_map_of_mem inside

/-- Where ids are distinct, a way along ids is a way along occurrences. -/
theorem follows_of_leads (distinct : narrative.ids.Nodup) {first : Occurrence} (begins : first ∈ narrative.occurrences)
    {id : String} (path : narrative.Leads first.id id) :
    ∀ last ∈ narrative.occurrences, last.id = id → ReflTransGen narrative.Follows first last := by
  induction path with
  | refl =>
    intro last member same
    rw [List.inj_on_of_nodup_map distinct member begins same]
  | tail _ link ih =>
    intro last member same
    obtain ⟨source, leaves, named, follows⟩ := link
    exact (ih source leaves named).tail ⟨leaves, member, same ▸ follows⟩

end Narrative

theorem Walk.threaded_tell (walk : Walk) (name : String) (node : Node) :
    (walk.tell name node).told.Threaded walk.told.roster.length name := by
  intro index other told late placed
  have inside := (List.getElem?_eq_some_iff.1 placed).1
  simp only [Walk.roster_tell, List.length_append, List.length_singleton] at inside
  obtain rfl : index = walk.told.roster.length := by omega
  simp only [Walk.roster_tell, List.getElem?_concat_length, Option.some.injEq, Prod.mk.injEq] at placed
  rw [placed.1]
  exact .refl

theorem Walk.Extends.ids_subset {earlier later : Walk} (grown : earlier.Extends later) :
    earlier.told.ids ⊆ later.told.ids := by
  intro id member
  obtain ⟨node, listed⟩ := Narrative.mem_ids.1 member
  exact Narrative.mem_ids.2 ⟨node, grown.roster.subset listed⟩

namespace Graph

variable {graph : Graph} {shared : List String} {root : String}

theorem Underway.name_mem_ids {opening : Opening} {done : List String} {ends : Ends} {walk : Walk}
    (holds : graph.Underway shared opening done ends walk) : opening.name shared ∈ walk.told.ids :=
  Narrative.mem_ids.2 ⟨opening.node, List.mem_of_getElem? holds.placed⟩

theorem Underway.end_mem_ids {opening : Opening} {done : List String} {ends : Ends} {walk : Walk}
    (holds : graph.Underway shared opening done ends walk) {id : String} (member : id ∈ ends.main ∨ id ∈ ends.branches) :
    id ∈ walk.told.ids := by
  obtain ⟨node, listed, _⟩ := holds.ends id member
  exact Narrative.mem_ids.2 ⟨node, listed⟩

theorem Arrival.entry_mem_ids {chain : List String} {id : String} {walk later : Walk} {visit : Visit}
    (arrival : graph.Arrival chain id walk visit later) : visit.entry ∈ later.told.ids := by
  obtain ⟨index, node, placed, _⟩ := arrival.entry
  exact Narrative.mem_ids.2 ⟨node, List.mem_of_getElem? placed⟩

def pairedLaw : Law where
  before _ _ walk := walk.told.Paired
  amid _ _ _ walk := walk.told.Paired
  after _ _ _ _ later := later.told.Paired

theorem pairedLaw_kept (graph : Graph) (shared : List String) (root : String) :
    Law.Kept graph shared ((graph.trailLaw root).both (graph.flowLaw shared)) pairedLaw where
  settled _ _ _ _ paired := paired
  repeated _ _ _ _ paired := by
    intro source target
    rw [Walk.linked_tell, Walk.preceded_tell]
    exact paired source target
  reused _ _ _ _ _ paired := paired
  opened _ _ paired := by
    intro source target
    rw [Opening.begun, Walk.told_note, Walk.linked_tell, Walk.preceded_tell]
    exact paired source target
  called _ _ _ paired := paired
  branched _ _ _ base after _ paired := by
    rw [Narrative.link_eq_linkAll]
    apply Narrative.Paired.linkAll paired
    · intro source member
      rw [List.mem_singleton.1 member]
      exact after.1.2.1.ids_subset base.2.name_mem_ids
    · exact after.2.2.2.entry_mem_ids
  sequenced _ _ _ base after _ paired := by
    apply Narrative.Paired.linkAll paired
    · intro source member
      exact after.1.2.1.ids_subset (base.2.end_mem_ids (Or.inl member))
    · exact after.2.2.2.entry_mem_ids
  finished {opening ends walk} _ base paired := by
    unfold finish
    split
    · split
      · exact paired
      · apply Narrative.Paired.linkAll paired
        · intro source member
          exact base.2.end_mem_ids ((Ends.mem_all.1 member).imp_left And.left)
        · exact base.2.name_mem_ids
    · exact paired

/-- The law of connection: from the entry of what was told one gets to all that was told with it, and to the ends
that it leaves open. What is told first is the entry. -/
def threadLaw (shared : List String) : Law where
  before _ _ _ := True
  amid opening _ ends walk :=
    walk.told.Threaded opening.start.told.roster.length (opening.name shared) ∧
      ∀ id, id ∈ ends.main ∨ id ∈ ends.branches → walk.told.Leads (opening.name shared) id
  after _ id walk visit later :=
    later.told.Threaded walk.told.roster.length visit.entry ∧
      (∀ left ∈ visit.ends, ∀ name ∈ left, later.told.Leads visit.entry name) ∧
      (later.told.roster.length = walk.told.roster.length ∨
        ∃ node, later.told.roster[walk.told.roster.length]? = some (visit.entry, node) ∧ node.id = id)

/-- A callee's part joins the rest by one link from where the node stands open. The ends are old ones or the callee's. -/
private theorem thread_step {opening : Opening} {chain done sources : List String} {callee : String} {ends last : Ends}
    {walk told : Walk} {visit : Visit} (grown : walk.Extends told) (holds : (threadLaw shared).amid opening done ends walk)
    (after : (threadLaw shared).after chain callee walk visit told)
    (opened : ∃ source ∈ sources, source ∈ walk.told.ids ∧ walk.told.Leads (opening.name shared) source)
    (origin : ∀ id, id ∈ last.main ∨ id ∈ last.branches →
      (id ∈ ends.main ∨ id ∈ ends.branches) ∨ ∃ left ∈ visit.ends, id ∈ left) :
    (threadLaw shared).amid opening (done ++ [callee]) last
      { told with told := told.told.linkAll sources visit.entry } := by
  obtain ⟨threaded, stands⟩ := holds
  obtain ⟨behind, leaves, _⟩ := after
  obtain ⟨source, member, present, path⟩ := opened
  have relinked : told.Extends { told with told := told.told.linkAll sources visit.entry } := .linkAll _ _ _
  have all := grown.trans relinked
  have joined : (told.told.linkAll sources visit.entry).Leads (opening.name shared) visit.entry := by
    apply (path.mono all.links).tail
    exact Narrative.linked_linkAll.2 (Or.inr ⟨member, rfl, grown.ids_subset present⟩)
  constructor
  · intro index name node late placed
    rw [Narrative.roster_linkAll] at placed
    by_cases old : index < walk.told.roster.length
    · have before : walk.told.roster[index]? = some (name, node) := by
        rw [List.getElem?_eq_getElem old, grown.roster.getElem old]
        exact (List.getElem?_eq_getElem _).symm.trans placed
      exact (threaded index name node late before).mono all.links
    · have path := behind index name node (by omega) placed
      exact joined.trans (path.mono relinked.links)
  · intro id either
    rcases origin id either with old | ⟨left, ends, inside⟩
    · exact (stands id old).mono all.links
    · exact joined.trans ((leaves left ends id inside).mono relinked.links)

private theorem thread_finished {opening : Opening} {done left : List String} {ends : Ends} {walk later : Walk}
    (placed : walk.told.roster[opening.start.told.roster.length]? = some (opening.name shared, opening.node))
    (roster : later.told.roster = walk.told.roster) (grown : walk.Extends later)
    (holds : (threadLaw shared).amid opening done ends walk)
    (leaves : ∀ name ∈ left, later.told.Leads (opening.name shared) name) :
    (threadLaw shared).after opening.chain opening.node.id opening.start ⟨opening.name shared, some left⟩ later := by
  refine ⟨?_, ?_, Or.inr ⟨opening.node, by rw [roster]; exact placed, rfl⟩⟩
  · intro index name node late located
    rw [roster] at located
    exact (holds.1 index name node late located).mono grown.links
  · intro other same name member
    cases same
    exact leaves name member

theorem threadLaw_kept (graph : Graph) (shared : List String) (root : String) :
    Law.Kept graph shared ((graph.trailLaw root).both (graph.flowLaw shared)) (threadLaw shared) where
  settled _ _ _ _ _ := ⟨Narrative.threaded_rfl _, Visit.leaf_ends .refl, Or.inl rfl⟩
  repeated {_ node walk} _ _ _ _ _ :=
    ⟨walk.threaded_tell _ node, Visit.leaf_ends .refl, Or.inr ⟨node, by simp [Visit.leaf], rfl⟩⟩
  reused _ _ _ _ _ _ := ⟨Narrative.threaded_rfl _, fun _ ended => (by cases ended), Or.inl rfl⟩
  opened {opening} _ _ _ := by
    constructor
    · rw [Opening.begun, Walk.told_note]
      exact opening.start.threaded_tell _ opening.node
    · intro id member
      rw [Ends.of_opened member]
      exact .refl
  called _ _ _ _ := trivial
  branched {opening _ _ _ _ _ _ _} _ _ _ base after holds thread := by
    rw [Narrative.link_eq_linkAll]
    apply thread_step after.1.2.1 holds thread
    · exact ⟨opening.name shared, List.mem_cons_self, base.2.name_mem_ids, .refl⟩
    · exact fun id => Ends.of_branched
  sequenced {_ _ _ _ ends _ _ _} _ _ _ base after holds thread := by
    apply thread_step after.1.2.1 holds thread
    · obtain ⟨source, member⟩ := List.exists_mem_of_ne_nil _ base.2.main
      exact ⟨source, member, base.2.end_mem_ids (Or.inl member), holds.2 source (Or.inl member)⟩
    · exact fun id => Ends.of_sequenced
  finished {opening ends walk} _ base holds := by
    have alone : ∀ {narrative : Narrative}, ∀ name ∈ [opening.name shared], narrative.Leads (opening.name shared) name := by
      intro narrative name member
      rw [List.mem_singleton.1 member]
      exact .refl
    unfold finish
    split
    · split
      · exact thread_finished base.2.placed rfl (.refl _) holds alone
      · exact thread_finished base.2.placed (Narrative.roster_linkAll _ _) (.linkAll _ _ _) holds alone
    · apply thread_finished base.2.placed rfl (.refl _) holds
      intro name member
      exact holds.2 name ((Ends.mem_all.1 member).imp_left And.left)

variable {narrative : Narrative}

/-- What is told first is the start node, under its own id, and everything can be reached from it. -/
theorem Consistent.threaded (consistent : graph.Consistent) {start : Node} (begins : graph.entry? = some start)
    (told : graph.narrate = .ok narrative) :
    narrative.roster[0]? = some (start.id, start) ∧ ∀ id ∈ narrative.ids, narrative.Leads start.id id := by
  obtain ⟨visit, walk, visited, rfl, holds⟩ := consistent.visited begins told
  have base := (trailLaw_kept graph graph.shared start.id).both (flowLaw_kept graph graph.shared start.id)
  obtain ⟨⟨⟨trail, _⟩, _, _, arrival⟩, threaded, _, first⟩ :=
    (base.both (threadLaw_kept graph graph.shared start.id)).visit visited ⟨holds, trivial⟩
  obtain ⟨index, other, placed, _⟩ := arrival.entry
  obtain ⟨node, head, named⟩ := first.resolve_left (by
    intro none
    have inside := (List.getElem?_eq_some_iff.1 placed).1
    rw [none] at inside
    exact Nat.not_lt_zero _ inside)
  obtain ⟨found, kind⟩ := consistent.entry?_node? begins
  have member := List.mem_of_getElem? head
  obtain rfl := trail.node_eq found member named
  have entry : visit.entry = node.id := trail.named _ _ member (by simp [kind, Kind.duplicable])
  rw [entry] at head threaded
  refine ⟨head, ?_⟩
  intro id told
  obtain ⟨other, listed⟩ := Narrative.mem_ids.1 told
  obtain ⟨position, located⟩ := List.getElem?_of_mem listed
  exact threaded position id other (Nat.zero_le _) located

theorem Consistent.paired (consistent : graph.Consistent) {start : Node} (begins : graph.entry? = some start)
    (told : graph.narrate = .ok narrative) : narrative.Paired := by
  obtain ⟨visit, walk, visited, rfl, holds⟩ := consistent.visited begins told
  have base := (trailLaw_kept graph graph.shared start.id).both (flowLaw_kept graph graph.shared start.id)
  have none : ({} : Walk).told.Paired := fun _ _ => ⟨nofun, nofun⟩
  exact ((base.both (pairedLaw_kept graph graph.shared start.id)).visit visited ⟨holds, none⟩).2

/-- Nothing leads to the start node. -/
private theorem not_linked_start {start : Node} (valid : graph.Valid) (consistent : graph.Consistent)
    (distinct : narrative.ids.Nodup) (begins : graph.entry? = some start) (sound : graph.Sound narrative) {first : Occurrence}
    (member : first ∈ narrative.occurrences) (node : first.node = start) {source : String} :
    ¬ narrative.Linked source first.id := by
  obtain ⟨found, kind⟩ := consistent.entry?_node? begins
  have starts := kind?_eq_some_iff.2 ⟨start, found, kind⟩
  intro link
  cases sound source first.id link with
  | sequel leaves arrives known listed continues order =>
    have goal := (node_of_roster distinct member (List.mem_of_getElem? arrives)).trans node
    rw [goal] at listed
    exact valid.kind?_callee consistent ⟨known, by simp [listed]⟩ starts
  | back leaves arrives loop body =>
    have goal := (node_of_roster distinct member arrives).trans node
    rw [goal, kind] at loop
    cases loop

/-- A checked graph with distinct names is told by occurrences that are linked on both ends, from the start node on,
which is the only one that nothing precedes. -/
theorem narrative_connected (built : graph.Built) (checked : graph.check = .ok ()) (distinct : graph.DistinctNames) :
    ∃ narrative start first, graph.narrate = .ok narrative ∧ graph.entry? = some start ∧
      narrative.occurrences.head? = some first ∧ first.id = start.id ∧ first.node = start ∧ first.prev = ∅ ∧
      (∀ occurrence ∈ narrative.occurrences, ∀ id, id ∈ occurrence.prev ∨ id ∈ occurrence.next → id ∈ narrative.ids) ∧
      (∀ source ∈ narrative.occurrences, ∀ target ∈ narrative.occurrences,
        target.id ∈ source.next ↔ source.id ∈ target.prev) ∧
      (∀ occurrence ∈ narrative.occurrences, ReflTransGen narrative.Follows first occurrence) ∧
      ∀ occurrence ∈ narrative.occurrences, occurrence.prev = ∅ → occurrence = first := by
  have valid := check_eq_ok_iff.1 checked
  have consistent := built.consistent
  obtain ⟨narrative, told⟩ := valid.narrate
  obtain ⟨start, begins, _⟩ := valid.entry
  have nodup := (named_of_narrate told).nodup distinct
  have paired := consistent.paired begins told
  obtain ⟨leading, threaded⟩ := consistent.threaded begins told
  rw [Narrative.roster, List.getElem?_map] at leading
  obtain ⟨first, head, same⟩ := Option.map_eq_some_iff.1 leading
  obtain ⟨named, node⟩ := Prod.mk.inj same
  have member := List.mem_of_getElem? head
  have unlinked : ∀ source, ¬ narrative.Linked source first.id := fun source =>
    not_linked_start valid consistent nodup begins (consistent.tells begins told).sound member node
  have reached : ∀ occurrence ∈ narrative.occurrences, ReflTransGen narrative.Follows first occurrence := by
    intro occurrence inside
    have path := threaded occurrence.id (List.mem_map_of_mem inside)
    rw [← named] at path
    exact Narrative.follows_of_leads nodup member path occurrence inside rfl
  refine ⟨narrative, start, first, told, begins, by rw [List.head?_eq_getElem?, head], named, node, ?_,
    fun occurrence inside id => paired.mem_ids inside,
    fun source leaves target arrives => paired.mem_next_iff nodup leaves arrives, reached, ?_⟩
  · apply OrderedSet.ext
    apply List.eq_nil_iff_forall_not_mem.2
    intro source before
    exact unlinked source ((paired source first.id).2 ⟨first, member, rfl, before⟩)
  · intro occurrence inside none
    cases reached occurrence inside with
    | refl => rfl
    | tail _ last =>
      obtain ⟨leaves, _, link⟩ := last
      have before := (paired.mem_next_iff nodup leaves inside).1 link
      rw [none] at before
      cases before

/-- A condition with an ELSE branch only, which is told for two callers, in a loop and after it, and a paragraph
that calls itself. -/
def tangled : GraphDoc := ⟨[
  .brief "MAIN" .start [] ["LOOP", "IF", "SEND"],
  .brief "LOOP" .loop ["MAIN"] ["SAVE", "IF"],
  .brief "IF" .condition ["MAIN", "LOOP"] ["ELSE"],
  .brief "ELSE" .conditionElse ["IF"] ["SAVE"],
  .brief "SAVE" .normal ["LOOP", "ELSE"] [],
  .brief "SEND" .normal ["MAIN", "SEND"] ["SEND"]]⟩

theorem tangled_connected :
    ∃ graph narrative first, tangled.toGraph = .ok graph ∧ graph.Built ∧ graph.check = .ok () ∧ graph.DistinctNames ∧
      graph.narrate = .ok narrative ∧
      narrative.ids = ["MAIN", "LOOP", "SAVE_1", "IF_1", "ELSE_1", "SAVE_2", "IF_2", "SEND_1", "SEND_2"] ∧
      narrative.occurrences.head? = some first ∧ first.id = "MAIN" ∧
      ∀ occurrence ∈ narrative.occurrences, ReflTransGen narrative.Follows first occurrence := by
  obtain ⟨graph, read⟩ : ∃ graph, tangled.toGraph = .ok graph := ⟨_, rfl⟩
  obtain ⟨built, checked⟩ := GraphDoc.built_toGraph read
  have nodes : tangled.toGraph.map (fun graph => (graph.ids, graph.entry?.map Node.id)) =
      .ok (["MAIN", "LOOP", "IF", "ELSE", "SAVE", "SEND"], some "MAIN") := rfl
  simp only [read, Except.map, Except.ok.injEq, Prod.mk.injEq] at nodes
  have distinct : graph.DistinctNames := distinctNames_of_plain (by rw [nodes.1]; decide)
  obtain ⟨narrative, start, first, told, begins, head, named, _, _, _, _, reached, _⟩ :=
    narrative_connected built checked distinct
  have listed : (tangled.toGraph.bind Graph.narrate).map Narrative.ids =
      .ok ["MAIN", "LOOP", "SAVE_1", "IF_1", "ELSE_1", "SAVE_2", "IF_2", "SEND_1", "SEND_2"] := by cbv
  simp only [read, told, Except.map, Except.bind, Except.ok.injEq] at listed
  have main : start.id = "MAIN" := by simpa [begins] using nodes.2
  exact ⟨graph, narrative, first, read, built, checked, distinct, told, listed, head, named.trans main, reached⟩

end Graph

end CallChart
