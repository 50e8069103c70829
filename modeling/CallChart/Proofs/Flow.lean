import CallChart.Proofs.Trail

/-! Where the links of a walk come from. A callee is linked from the node that calls it or from something
behind an earlier callee of that node, and a loop from what runs in its body. The argument is about open
ends: at every moment they stand for nodes behind what was told so far, and there is one to link from.
So no link is made up, and once a node is done with, each of its calls has been given a link. -/

namespace CallChart

namespace Ends

variable {ends : Ends}

private theorem mem_foldl_branches {branches all : List String} {id : String} :
    id ∈ branches.foldl (fun all branch => if branch ∈ all then all else all ++ [branch]) all ↔
      id ∈ all ∨ id ∈ branches := by
  induction branches generalizing all with
  | nil => simp
  | cons branch rest ih =>
    rw [List.foldl_cons, ih, List.mem_cons]
    split
    · next present =>
      constructor
      · rintro (old | later)
        · exact Or.inl old
        · exact Or.inr (Or.inr later)
      · rintro (old | rfl | later)
        · exact Or.inl old
        · exact Or.inl present
        · exact Or.inr later
    · rw [List.mem_append, List.mem_singleton, or_assoc]

theorem mem_all {id : String} :
    id ∈ ends.all ↔ (id ∈ ends.main ∧ (ends.ran = true ∨ ends.branches = [])) ∨ id ∈ ends.branches := by
  rw [all, mem_foldl_branches]
  cases ends.ran <;> cases ends.branches <;> simp

theorem all_ne_nil (some : ends.main ≠ []) : ends.all ≠ [] := by
  obtain ⟨id, member⟩ := List.exists_mem_of_ne_nil _ some
  by_cases none : ends.branches = []
  · exact List.ne_nil_of_mem (mem_all.2 (Or.inl ⟨member, Or.inr none⟩))
  · obtain ⟨branch, listed⟩ := List.exists_mem_of_ne_nil _ none
    exact List.ne_nil_of_mem (mem_all.2 (Or.inr listed))

private theorem mem_getD {left : Option (List String)} {others : List String} {id : String}
    (member : id ∈ left.getD others) : id ∈ others ∨ ∃ list ∈ left, id ∈ list := by
  cases left with
  | none => exact Or.inl member
  | some list => exact Or.inr ⟨list, rfl, member⟩

/-- The open ends after an ELSE branch are those before and those of the branch. -/
theorem of_branched {visit : Visit} {id : String}
    (member : id ∈ { ends with branches := ends.branches ++ visit.ends.getD [] }.main ∨
      id ∈ { ends with branches := ends.branches ++ visit.ends.getD [] }.branches) :
    (id ∈ ends.main ∨ id ∈ ends.branches) ∨ ∃ left ∈ visit.ends, id ∈ left := by
  rcases member with main | branch
  · exact Or.inl (Or.inl main)
  · rcases List.mem_append.1 branch with old | new
    · exact Or.inl (Or.inr old)
    · exact Or.inr ((mem_getD new).resolve_left List.not_mem_nil)

/-- The open ends after a callee in sequence are some of those before and those of the callee. -/
theorem of_sequenced {visit : Visit} {closed : Bool} {id : String}
    (member : id ∈ { ends with
        ran := true, main := if closed then ends.main else visit.ends.getD ends.main }.main ∨
      id ∈ { ends with ran := true, main := if closed then ends.main else visit.ends.getD ends.main }.branches) :
    (id ∈ ends.main ∨ id ∈ ends.branches) ∨ ∃ left ∈ visit.ends, id ∈ left := by
  rcases member with main | branch
  · dsimp only at main
    split at main
    · exact Or.inl (Or.inl main)
    · exact (mem_getD main).imp_left Or.inl
  · exact Or.inl (Or.inr branch)

/-- Before the first callee of a node, the node itself is the only open end. -/
theorem of_opened {name id : String}
    (member : id ∈ ({ main := [name] } : Ends).main ∨ id ∈ ({ main := [name] } : Ends).branches) : id = name := by
  rcases member with main | branch
  · exact List.mem_singleton.1 main
  · cases branch

end Ends

/-- What is left where it was entered has its entry as the only end. -/
theorem Visit.leaf_ends {property : String → Prop} {id : String} (entry : property id) :
    ∀ left ∈ (Visit.leaf id).ends, ∀ name ∈ left, property name := by
  intro left ends name member
  cases ends
  rw [List.mem_singleton.1 member]
  exact entry

namespace Graph

variable {graph : Graph}

/-- An id at which the telling of a node may stand open when some of its callees are done with: it names
the node itself, or something behind one of those callees. -/
def OpenEnd (graph : Graph) (roster : List (String × Node)) (parent : String) (done : List String) (id : String) : Prop :=
  ∃ node, (id, node) ∈ roster ∧ (node.id = parent ∨ ∃ earlier ∈ done, graph.Reaches earlier node.id)

/-- Where a link comes from. It leads on to a callee, forward in the order of telling unless the callee is
told once only or its caller is crowded; or it leads back to a loop from its body. -/
inductive Justified (graph : Graph) (roster : List (String × Node)) (source target : String) : Prop where
  | sequel {first second : Nat} {origin goal : Node} {parent : String} {done later : List String}
      (leaves : roster[first]? = some (source, origin)) (arrives : roster[second]? = some (target, goal))
      (known : graph.contains parent = true) (listed : graph.callees parent = done ++ goal.id :: later)
      (continues : origin.id = parent ∨ ∃ earlier ∈ done, graph.Reaches earlier origin.id)
      (order : first < second ∨ goal.kind.duplicable = false ∨ graph.Crowded parent) :
      Justified graph roster source target
  | back {origin goal : Node} (leaves : (source, origin) ∈ roster) (arrives : (target, goal) ∈ roster)
      (loop : goal.kind = .loop) (body : graph.Reaches goal.id origin.id) :
      Justified graph roster source target

def Narrated (graph : Graph) (narrative : Narrative) (parent : String) (done : List String) (callee : String) : Prop :=
  ∃ source target node, narrative.Linked source target ∧ graph.OpenEnd narrative.roster parent done source ∧
    (target, node) ∈ narrative.roster ∧ node.id = callee

/-- Each call of a node that is told and not open any more has been given a link. -/
def Finished (graph : Graph) (chain : List String) (narrative : Narrative) : Prop :=
  ∀ name node, (name, node) ∈ narrative.roster → node.id ∈ chain ∨
    ∀ done callee later, graph.callees node.id = done ++ callee :: later →
      graph.Narrated narrative node.id done callee

section Growth

variable {roster longer : List (String × Node)} {narrative wider : Narrative} {parent id source target : String}
  {done : List String}

theorem OpenEnd.mono (opened : graph.OpenEnd roster parent done id) (grown : roster <+: longer) :
    graph.OpenEnd longer parent done id := by
  obtain ⟨node, member, place⟩ := opened
  exact ⟨node, grown.subset member, place⟩

theorem OpenEnd.later (opened : graph.OpenEnd roster parent done id) (callee : String) :
    graph.OpenEnd roster parent (done ++ [callee]) id := by
  obtain ⟨node, member, place⟩ := opened
  refine ⟨node, member, place.imp_right ?_⟩
  rintro ⟨earlier, listed, path⟩
  exact ⟨earlier, List.mem_append_left _ listed, path⟩

theorem OpenEnd.behind (opened : graph.OpenEnd roster parent done id) (known : graph.contains parent = true)
    (listed : done ⊆ graph.callees parent) : ∃ node, (id, node) ∈ roster ∧ graph.Reaches parent node.id := by
  obtain ⟨node, member, rfl | ⟨earlier, inside, path⟩⟩ := opened
  · exact ⟨node, member, .refl⟩
  · exact ⟨node, member, .head ⟨known, listed inside⟩ path⟩

theorem getElem?_mono {index : Nat} {entry : String × Node} (grown : roster <+: longer)
    (placed : roster[index]? = some entry) : longer[index]? = some entry := by
  obtain ⟨inside, rfl⟩ := List.getElem?_eq_some_iff.1 placed
  rw [grown.getElem inside]
  exact List.getElem?_eq_getElem _

theorem Justified.mono (justified : graph.Justified roster source target) (grown : roster <+: longer) :
    graph.Justified longer source target := by
  cases justified with
  | sequel leaves arrives known listed continues order =>
    exact .sequel (getElem?_mono grown leaves) (getElem?_mono grown arrives) known listed continues order
  | back leaves arrives loop body => exact .back (grown.subset leaves) (grown.subset arrives) loop body

theorem Narrated.mono {callee : String} (narrated : graph.Narrated narrative parent done callee)
    (grown : narrative.roster <+: wider.roster)
    (links : ∀ source target, narrative.Linked source target → wider.Linked source target) :
    graph.Narrated wider parent done callee := by
  obtain ⟨source, target, node, link, opened, member, named⟩ := narrated
  exact ⟨source, target, node, links _ _ link, opened.mono grown, grown.subset member, named⟩

end Growth

def Sound (graph : Graph) (narrative : Narrative) : Prop :=
  ∀ source target, narrative.Linked source target → graph.Justified narrative.roster source target

/-- What telling an id gives its caller: an occurrence of it to link to, and ends behind it to go on from.
The occurrence is new unless the id is told once only or the caller is crowded. -/
structure Arrival (graph : Graph) (chain : List String) (id : String) (walk : Walk) (visit : Visit) (later : Walk) :
    Prop where
  entry : ∃ (index : Nat) (node : Node), later.told.roster[index]? = some (visit.entry, node) ∧ node.id = id ∧
    (walk.told.roster.length ≤ index ∨ node.kind.duplicable = false ∨ ∃ caller ∈ chain.head?, graph.Crowded caller)
  ends : ∀ left ∈ visit.ends, left ≠ [] ∧
    ∀ name ∈ left, ∃ node, (name, node) ∈ later.told.roster ∧ graph.Reaches id node.id

structure Underway (graph : Graph) (shared : List String) (opening : Opening) (done : List String) (ends : Ends)
    (walk : Walk) : Prop where
  sound : graph.Sound walk.told
  finished : graph.Finished (opening.node.id :: opening.chain) walk.told
  placed : walk.told.roster[opening.start.told.roster.length]? = some (opening.name shared, opening.node)
  narrated : ∀ front callee back, done = front ++ callee :: back →
    graph.Narrated walk.told opening.node.id front callee
  main : ends.main ≠ []
  ends : ∀ id, id ∈ ends.main ∨ id ∈ ends.branches → graph.OpenEnd walk.told.roster opening.node.id done id

def flowLaw (graph : Graph) (shared : List String) : Law where
  before chain _ walk := graph.Sound walk.told ∧ graph.Finished chain walk.told
  amid opening done ends walk := graph.Underway shared opening done ends walk
  after chain id walk visit later :=
    graph.Sound later.told ∧ graph.Finished chain later.told ∧ graph.Arrival chain id walk visit later

variable {shared : List String} {root : String}

private theorem sound_tell {walk : Walk} (sound : graph.Sound walk.told) (name : String) (node : Node) :
    graph.Sound (walk.tell name node).told := by
  intro source target link
  rw [Walk.roster_tell]
  exact (sound source target (Walk.linked_tell.1 link)).mono (List.prefix_append _ _)

private theorem finished_tell {walk : Walk} {chain : List String} (finished : graph.Finished chain walk.told)
    (name : String) {node : Node} (inside : node.id ∈ chain) : graph.Finished chain (walk.tell name node).told := by
  have grown := Walk.Extends.tell walk name node
  intro other told member
  rw [Walk.roster_tell, List.mem_append] at member
  rcases member with old | new
  · refine (finished other told old).imp_right fun narrated done callee later listed => ?_
    exact (narrated done callee later listed).mono grown.roster grown.links
  · cases List.mem_singleton.1 new
    exact Or.inl inside

private theorem finished_relink {chain : List String} {walk later : Walk} (finished : graph.Finished chain walk.told)
    (grown : walk.Extends later) (roster : later.told.roster = walk.told.roster) :
    graph.Finished chain later.told := by
  intro name node member
  rw [roster] at member
  refine (finished name node member).imp_right fun narrated done callee later listed => ?_
  exact (narrated done callee later listed).mono grown.roster grown.links

/-- The links made for one callee, from ends that stand open to its entry, are justified by the call. -/
private theorem sound_linkAll {opening : Opening} {done later sources : List String} {callee : String}
    {walk told : Walk} {visit : Visit} (fresh : opening.Fresh graph)
    (listed : graph.callees opening.node.id = done ++ callee :: later)
    (opened : ∀ id ∈ sources, graph.OpenEnd walk.told.roster opening.node.id done id)
    (grown : walk.Extends told) (sound : graph.Sound told.told)
    (arrival : graph.Arrival (opening.node.id :: opening.chain) callee walk visit told) :
    graph.Sound (told.told.linkAll sources visit.entry) := by
  intro source target link
  rw [Narrative.roster_linkAll]
  rcases Narrative.linked_linkAll.1 link with old | ⟨member, rfl, _⟩
  · exact sound source target old
  obtain ⟨origin, known, place⟩ := opened source member
  obtain ⟨first, leaves⟩ := List.getElem?_of_mem known
  obtain ⟨second, goal, arrives, rfl, order⟩ := arrival.entry
  refine .sequel (getElem?_mono grown.roster leaves) arrives (contains_iff.2 ⟨_, fresh.found⟩) listed place ?_
  -- The source was told before the call was followed, so a new occurrence of the callee is behind it.
  rcases order with new | single | ⟨caller, head, crowded⟩
  · exact Or.inl (Nat.lt_of_lt_of_le (List.getElem?_eq_some_iff.1 leaves).1 new)
  · exact Or.inr (Or.inl single)
  · cases head
    exact Or.inr (Or.inr crowded)

private theorem underway_step {opening : Opening} {done later sources : List String} {callee : String}
    {ends last : Ends} {walk told : Walk} {visit : Visit} (fresh : opening.Fresh graph)
    (listed : graph.callees opening.node.id = done ++ callee :: later) (grown : walk.Extends told)
    (holds : graph.Underway shared opening done ends walk)
    (after : (graph.flowLaw shared).after (opening.node.id :: opening.chain) callee walk visit told)
    (present : sources ≠ []) (opened : ∀ id ∈ sources, graph.OpenEnd walk.told.roster opening.node.id done id)
    (main : last.main ≠ [])
    (ends : ∀ id, id ∈ last.main ∨ id ∈ last.branches →
      graph.OpenEnd told.told.roster opening.node.id (done ++ [callee]) id) :
    graph.Underway shared opening (done ++ [callee]) last
      { told with told := told.told.linkAll sources visit.entry } := by
  obtain ⟨sound, finished, arrival⟩ := after
  have relinked : told.Extends { told with told := told.told.linkAll sources visit.entry } := .linkAll _ _ _
  have all := grown.trans relinked
  refine ⟨sound_linkAll fresh listed opened grown sound arrival,
    finished_relink finished relinked (Narrative.roster_linkAll _ _),
    getElem?_mono all.roster holds.placed, ?_, main, ?_⟩
  · intro front next back split
    rcases List.eq_nil_or_concat back with rfl | ⟨rest, final, rfl⟩
    · -- The callee just told: any of the ends it was linked from will do.
      obtain ⟨rfl, same⟩ := List.append_inj split (by simpa using congrArg List.length split)
      cases same
      obtain ⟨source, member⟩ := List.exists_mem_of_ne_nil _ present
      obtain ⟨index, node, arrives, named, _⟩ := arrival.entry
      obtain ⟨origin, known, place⟩ := (opened source member).mono all.roster
      refine ⟨source, visit.entry, node, ?_, ⟨origin, known, place⟩, ?_, named⟩
      · refine Narrative.linked_linkAll.2 (Or.inr ⟨member, rfl, ?_⟩)
        rw [Narrative.mem_ids, ← Narrative.roster_linkAll sources visit.entry]
        exact ⟨origin, known⟩
      · rw [Narrative.roster_linkAll]
        exact List.mem_of_getElem? arrives
    · have earlier : done = front ++ next :: rest := by
        have shape : done ++ [callee] = (front ++ next :: rest) ++ [final] := by simpa using split
        exact (List.append_inj' shape rfl).1
      exact (holds.narrated front next rest earlier).mono all.roster all.links
  · intro id member
    rw [Narrative.roster_linkAll]
    exact ends id member

private theorem Arrival.openEnd {chain done : List String} {callee parent id : String} {walk told : Walk}
    {visit : Visit} (arrival : graph.Arrival chain callee walk visit told) {left : List String}
    (ends : left ∈ visit.ends) (member : id ∈ left) :
    graph.OpenEnd told.told.roster parent (done ++ [callee]) id := by
  obtain ⟨node, known, path⟩ := (arrival.ends left ends).2 id member
  exact ⟨node, known, Or.inr ⟨callee, by simp, path⟩⟩

private theorem Underway.openEnds {opening : Opening} {done : List String} {ends : Ends} {walk : Walk}
    (holds : graph.Underway shared opening done ends walk) :
    ∀ id ∈ [opening.name shared], graph.OpenEnd walk.told.roster opening.node.id done id := by
  intro id member
  rw [List.mem_singleton.1 member]
  exact ⟨opening.node, List.mem_of_getElem? holds.placed, Or.inl rfl⟩

private theorem Underway.later {opening : Opening} {done : List String} {ends : Ends} {walk told : Walk}
    {callee id : String} (holds : graph.Underway shared opening done ends walk)
    (grown : walk.told.roster <+: told.told.roster) (member : id ∈ ends.main ∨ id ∈ ends.branches) :
    graph.OpenEnd told.told.roster opening.node.id (done ++ [callee]) id :=
  ((holds.ends id member).mono grown).later callee

private theorem Underway.close {opening : Opening} {ends : Ends} {walk : Walk}
    (holds : graph.Underway shared opening (graph.callees opening.node.id) ends walk) :
    graph.Finished opening.chain walk.told := by
  intro name node member
  rcases holds.finished name node member with inside | narrated
  · rcases List.mem_cons.1 inside with same | inside
    · rw [same]
      exact Or.inr holds.narrated
    · exact Or.inl inside
  · exact Or.inr narrated

private theorem arrival_settled {chain : List String} {node : Node} {walk : Walk}
    (found : graph.node? node.id = some node) (single : node.kind.duplicable = false)
    (told : walk.told.tells node.id = true) (trail : graph.Trail root chain walk) :
    graph.Arrival chain node.id walk (.leaf node.id) walk := by
  have member := trail.mem_roster found single told
  obtain ⟨index, placed⟩ := List.getElem?_of_mem member
  refine ⟨⟨index, node, placed, rfl, Or.inr (Or.inl single)⟩, ?_⟩
  rintro _ ⟨⟩
  refine ⟨by simp, fun name listed => ⟨node, ?_, .refl⟩⟩
  rw [List.mem_singleton.1 listed]
  exact member

private theorem arrival_repeated {chain : List String} (walk : Walk) (name : String) (node : Node) :
    graph.Arrival chain node.id walk (.leaf name) (walk.tell name node) := by
  refine ⟨⟨walk.told.roster.length, node, by simp [Visit.leaf], rfl, Or.inl (Nat.le_refl _)⟩, ?_⟩
  rintro _ ⟨⟩
  refine ⟨by simp, fun other listed => ⟨node, ?_, .refl⟩⟩
  simp [List.mem_singleton.1 listed]

/-- A note is come back to only where the caller is crowded. -/
private theorem arrival_reused {caller entry id : String} {chain : List String} {walk : Walk}
    (known : walk.reached.find? (id, caller) = some entry)
    (approach : graph.Approach root (caller :: chain) id walk) :
    graph.Arrival (caller :: chain) id walk ⟨entry, none⟩ walk := by
  obtain ⟨_, node, member, named, _⟩ := approach.trail.notes _ _ _ known
  obtain ⟨index, placed⟩ := List.getElem?_of_mem member
  have noted : walk.Noted id caller := Walk.find?_isSome_iff_noted.1 (by simp [known])
  exact ⟨⟨index, node, placed, named, Or.inr (Or.inr ⟨caller, rfl, approach.crowded caller rfl noted⟩)⟩, nofun⟩

private theorem underway_opened {opening : Opening} (sound : graph.Sound opening.start.told)
    (finished : graph.Finished opening.chain opening.start.told) :
    graph.Underway shared opening [] { main := [opening.name shared] } (opening.begun shared) := by
  have still : graph.Finished (opening.node.id :: opening.chain) opening.start.told :=
    fun name node member => (finished name node member).imp_left (List.mem_cons_of_mem _)
  refine ⟨?_, ?_, by simp, by simp, by simp, ?_⟩
  · rw [Opening.begun, Walk.told_note]
    exact sound_tell sound _ _
  · rw [Opening.begun, Walk.told_note]
    exact finished_tell still _ List.mem_cons_self
  · intro id member
    rw [Ends.of_opened member]
    exact ⟨opening.node, by simp, Or.inl rfl⟩

private theorem sound_back {opening : Opening} {ends : Ends} {walk : Walk} (fresh : opening.Fresh graph)
    (loop : opening.node.kind = .loop)
    (holds : graph.Underway shared opening (graph.callees opening.node.id) ends walk) :
    graph.Sound (walk.told.linkAll ends.all (opening.name shared)) := by
  intro source target link
  rw [Narrative.roster_linkAll]
  rcases Narrative.linked_linkAll.1 link with old | ⟨member, rfl, _⟩
  · exact holds.sound source target old
  have opened := holds.ends source ((Ends.mem_all.1 member).imp_left And.left)
  obtain ⟨origin, known, body⟩ := opened.behind (contains_iff.2 ⟨_, fresh.found⟩) (List.Subset.refl _)
  exact .back known (List.mem_of_getElem? holds.placed) loop body

private theorem arrival_finished {opening : Opening} {ends : Ends} {walk later : Walk} {left : List String}
    (fresh : opening.Fresh graph) (roster : later.told.roster = walk.told.roster)
    (holds : graph.Underway shared opening (graph.callees opening.node.id) ends walk)
    (present : left ≠ [])
    (opened : ∀ id ∈ left, graph.OpenEnd walk.told.roster opening.node.id (graph.callees opening.node.id) id) :
    graph.Arrival opening.chain opening.node.id opening.start ⟨opening.name shared, some left⟩ later := by
  refine ⟨⟨_, opening.node, by rw [roster]; exact holds.placed, rfl, Or.inl (Nat.le_refl _)⟩, ?_⟩
  rintro _ ⟨⟩
  refine ⟨present, fun name member => ?_⟩
  rw [roster]
  exact (opened name member).behind (contains_iff.2 ⟨_, fresh.found⟩) (List.Subset.refl _)

theorem flowLaw_kept (graph : Graph) (shared : List String) (root : String) :
    Law.Kept graph shared (graph.trailLaw root) (graph.flowLaw shared) where
  settled found single told approach holds := ⟨holds.1, holds.2, arrival_settled found single told approach.trail⟩
  repeated {_ node walk} _ _ inside _ holds :=
    ⟨sound_tell holds.1 _ _, finished_tell holds.2 _ inside, arrival_repeated walk _ node⟩
  reused _ _ _ known approach holds := ⟨holds.1, holds.2, arrival_reused known approach⟩
  opened _ _ holds := underway_opened holds.1 holds.2
  called _ _ _ holds := ⟨holds.sound, holds.finished⟩
  branched fresh listed _ _ base holds after := by
    rw [Narrative.link_eq_linkAll]
    refine underway_step fresh listed base.2.1 holds after (List.cons_ne_nil _ _) holds.openEnds holds.main ?_
    intro id member
    rcases Ends.of_branched member with old | ⟨left, ends, inside⟩
    · exact holds.later base.2.1.roster old
    · exact after.2.2.openEnd ends inside
  sequenced {_ _ _ _ ends _ _ visit} fresh listed _ _ base holds after := by
    refine underway_step fresh listed base.2.1 holds after holds.main (fun id main => holds.ends id (Or.inl main)) ?_ ?_
    · dsimp only
      split
      · exact holds.main
      · cases left : visit.ends with
        | none => exact holds.main
        | some list => exact (after.2.2.ends list left).1
    · intro id member
      rcases Ends.of_sequenced member with old | ⟨left, ends, inside⟩
      · exact holds.later base.2.1.roster old
      · exact after.2.2.openEnd ends inside
  finished {opening ends walk} fresh _ holds := by
    unfold finish
    split
    · next loop =>
      split
      · exact ⟨holds.sound, holds.close, arrival_finished fresh rfl holds (List.cons_ne_nil _ _) holds.openEnds⟩
      · exact ⟨sound_back fresh loop holds, finished_relink holds.close (.linkAll _ _ _) (Narrative.roster_linkAll _ _),
          arrival_finished fresh (Narrative.roster_linkAll _ _) holds (List.cons_ne_nil _ _) holds.openEnds⟩
    · refine ⟨holds.sound, holds.close, arrival_finished fresh rfl holds (Ends.all_ne_nil holds.main) ?_⟩
      intro id member
      exact holds.ends id ((Ends.mem_all.1 member).imp_left And.left)

end Graph

end CallChart
