import Mathlib.Data.List.Chain
import CallChart.Proofs.Reachability
import CallChart.Proofs.WalkLogic

/-! Where a walk has been. The open calls form a path of distinct nodes that are told already, and the notes
of the walk say which calls it has followed. A note that the walk comes back to was made when the caller
was opened for some other caller of its own: a copy is told again only behind a node with two callers. -/

namespace CallChart

namespace Walk

def Noted (walk : Walk) (callee caller : String) : Prop := (callee, caller) ∈ walk.reached.keys

/-- What a walk never takes back: tellings, notes and links. -/
structure Extends (earlier later : Walk) : Prop where
  roster : earlier.told.roster <+: later.told.roster
  noted : ∀ callee caller, earlier.Noted callee caller → later.Noted callee caller
  links : ∀ source target, earlier.told.Linked source target → later.told.Linked source target

variable {walk earlier later : Walk}

theorem nextId_single (walk : Walk) (shared : List String) {node : Node} (single : node.kind.duplicable = false) :
    walk.nextId shared node = node.id := by
  simp [nextId, single]

theorem find?_isSome_iff_noted {callee caller : String} :
    (walk.reached.find? (callee, caller)).isSome ↔ walk.Noted callee caller := by
  rw [Noted, ← not_iff_not, ← OrderedMap.find?_eq_none_iff, Bool.not_eq_true, Option.isSome_eq_false_iff,
    Option.isNone_iff_eq_none]

theorem find?_note {node : Node} {caller : Option String} {id callee other entry : String}
    (known : (walk.note node caller id).reached.find? (callee, other) = some entry) :
    walk.reached.find? (callee, other) = some entry ∨
      (callee = node.id ∧ caller = some other ∧ entry = id ∧ node.kind.duplicable = true) := by
  unfold note at known
  split at known
  · next first =>
    split at known
    next duplicable =>
      rw [OrderedMap.find?_insert] at known
      split at known
      · next same =>
        cases same
        cases known
        exact Or.inr ⟨rfl, rfl, rfl, duplicable⟩
      · exact Or.inl known
    next => exact Or.inl known
  · exact Or.inl known

theorem noted_note {node : Node} {caller : Option String} {id callee other : String} :
    (walk.note node caller id).Noted callee other ↔
      walk.Noted callee other ∨ (callee = node.id ∧ caller = some other ∧ node.kind.duplicable = true) := by
  unfold note Noted
  cases caller with
  | none => simp
  | some first =>
    by_cases duplicable : node.kind.duplicable
    · simp only [duplicable, if_true, OrderedMap.keys_insert]
      split
      next present =>
        constructor
        · exact Or.inl
        · rintro (old | ⟨rfl, same, _⟩)
          · exact old
          · exact Option.some.inj same ▸ present
      next => simp [eq_comm]
    · simp [duplicable]

namespace Extends

theorem refl (walk : Walk) : walk.Extends walk := ⟨List.prefix_rfl, fun _ _ => id, fun _ _ => id⟩

theorem trans {middle : Walk} (first : earlier.Extends middle) (second : middle.Extends later) :
    earlier.Extends later :=
  ⟨first.roster.trans second.roster, fun _ _ noted => second.noted _ _ (first.noted _ _ noted),
    fun _ _ link => second.links _ _ (first.links _ _ link)⟩

theorem tell (walk : Walk) (name : String) (node : Node) : walk.Extends (walk.tell name node) :=
  ⟨by rw [roster_tell]; exact List.prefix_append _ _, fun _ _ noted => noted, fun _ _ link => linked_tell.2 link⟩

theorem link (walk : Walk) (source target : String) :
    walk.Extends { walk with told := walk.told.link source target } :=
  ⟨⟨[], by simp⟩, fun _ _ noted => noted,
    fun _ _ link => Narrative.linked_link.2 (Or.inl link)⟩

theorem linkAll (walk : Walk) (sources : List String) (target : String) :
    walk.Extends { walk with told := walk.told.linkAll sources target } :=
  ⟨⟨[], by simp⟩, fun _ _ noted => noted,
    fun _ _ link => Narrative.linked_linkAll.2 (Or.inl link)⟩

theorem note (walk : Walk) (node : Node) (caller : Option String) (id : String) :
    walk.Extends (walk.note node caller id) :=
  ⟨⟨[], by simp⟩, fun _ _ noted => noted_note.2 (Or.inl noted),
    fun _ _ link => by rw [told_note]; exact link⟩

theorem tells (grown : earlier.Extends later) {id : String} (told : earlier.told.tells id = true) :
    later.told.tells id = true := by
  obtain ⟨name, node, member, same⟩ := Narrative.tells_iff.1 told
  exact Narrative.tells_iff.2 ⟨name, node, grown.roster.subset member, same⟩

end Extends

end Walk

namespace Graph

/-- A node that may be told again, with two callers. -/
def Crowded (graph : Graph) (id : String) : Prop :=
  (∃ node, graph.node? id = some node ∧ node.kind.duplicable = true) ∧
    ∃ first second, first ≠ second ∧ graph.Calls first id ∧ graph.Calls second id

/-- A node has been opened before: it is told once only and that is done, or a call to it was followed. -/
def Entered (graph : Graph) (walk : Walk) (id : String) : Prop :=
  (∃ node, graph.node? id = some node ∧ node.kind.duplicable = false ∧ walk.told.tells id = true) ∨
    ∃ caller, walk.Noted id caller

theorem Entered.mono {graph : Graph} {earlier later : Walk} {id : String} (entered : graph.Entered earlier id)
    (extended : earlier.Extends later) : graph.Entered later id := by
  rcases entered with ⟨node, found, single, told⟩ | ⟨caller, noted⟩
  · exact Or.inl ⟨node, found, single, extended.tells told⟩
  · exact Or.inr ⟨caller, extended.noted _ _ noted⟩

/-- The state of a walk that began at `root`, with the given calls open, innermost first. -/
structure Trail (graph : Graph) (root : String) (chain : List String) (walk : Walk) : Prop where
  calls : chain.IsChain fun callee caller => graph.Calls caller callee
  distinct : chain.Nodup
  told : ∀ id ∈ chain, walk.told.tells id = true
  behind : ∀ name node, (name, node) ∈ walk.told.roster →
    graph.node? node.id = some node ∧ graph.Reaches root node.id
  named : ∀ name node, (name, node) ∈ walk.told.roster → node.kind.duplicable = false → name = node.id
  notes : ∀ callee caller entry, walk.reached.find? (callee, caller) = some entry →
    graph.Calls caller callee ∧
      ∃ node, (entry, node) ∈ walk.told.roster ∧ node.id = callee ∧ node.kind.duplicable = true
  followed : ∀ callee caller, walk.Noted callee caller → graph.Entered walk caller
  entered : ∀ id ∈ chain, graph.Entered walk id

namespace Trail

variable {graph : Graph} {root : String} {chain : List String} {walk : Walk}

/-- Links do not matter to where a walk has been. -/
theorem relink (trail : graph.Trail root chain walk) {other : Walk} (roster : other.told.roster = walk.told.roster)
    (reached : other.reached = walk.reached) : graph.Trail root chain other := by
  have tells : ∀ id, other.told.tells id = walk.told.tells id := by
    intro id
    rw [Bool.eq_iff_iff, Narrative.tells_iff, Narrative.tells_iff, roster]
  have noted : ∀ callee caller, other.Noted callee caller ↔ walk.Noted callee caller := by
    intro callee caller
    rw [Walk.Noted, Walk.Noted, reached]
  have entered : ∀ id, graph.Entered walk id → graph.Entered other id := by
    rintro id (⟨node, found, single, told⟩ | ⟨caller, known⟩)
    · exact Or.inl ⟨node, found, single, (tells id).trans told⟩
    · exact Or.inr ⟨caller, (noted _ _).2 known⟩
  refine ⟨trail.calls, trail.distinct, ?_, ?_, ?_, ?_, ?_, fun id inside => entered id (trail.entered id inside)⟩
  · intro id inside
    rw [tells]
    exact trail.told id inside
  · rw [roster]
    exact trail.behind
  · rw [roster]
    exact trail.named
  · rw [roster, reached]
    exact trail.notes
  · intro callee caller known
    exact entered caller (trail.followed callee caller ((noted _ _).1 known))

theorem tell (trail : graph.Trail root chain walk) {name : String} {node : Node}
    (found : graph.node? node.id = some node) (reached : graph.Reaches root node.id)
    (own : node.kind.duplicable = false → name = node.id) : graph.Trail root chain (walk.tell name node) := by
  have extended := Walk.Extends.tell walk name node
  refine ⟨trail.calls, trail.distinct, fun id inside => extended.tells (trail.told id inside), ?_, ?_, ?_, ?_, ?_⟩
  · intro other told member
    rw [Walk.roster_tell, List.mem_append] at member
    rcases member with old | new
    · exact trail.behind other told old
    · cases List.mem_singleton.1 new
      exact ⟨found, reached⟩
  · intro other told member single
    rw [Walk.roster_tell, List.mem_append] at member
    rcases member with old | new
    · exact trail.named other told old single
    · cases List.mem_singleton.1 new
      exact own single
  · intro callee caller entry known
    obtain ⟨call, told, member, named⟩ := trail.notes callee caller entry known
    exact ⟨call, told, extended.roster.subset member, named⟩
  · intro callee caller known
    exact (trail.followed callee caller known).mono extended
  · intro id inside
    exact (trail.entered id inside).mono extended

/-- What is told as a node of the graph is that node. -/
theorem node_eq (trail : graph.Trail root chain walk) {name : String} {node other : Node}
    (found : graph.node? node.id = some node) (member : (name, other) ∈ walk.told.roster) (same : other.id = node.id) :
    other = node :=
  Option.some.inj ((same ▸ (trail.behind name other member).1).symm.trans found)

/-- What is told once only is found under its own id. -/
theorem mem_roster (trail : graph.Trail root chain walk) {node : Node} (found : graph.node? node.id = some node)
    (single : node.kind.duplicable = false) (told : walk.told.tells node.id = true) :
    (node.id, node) ∈ walk.told.roster := by
  obtain ⟨name, other, member, same⟩ := Narrative.tells_iff.1 told
  obtain rfl := trail.node_eq found member same
  exact trail.named name other member single ▸ member

/-- Calls lead from every open node to the innermost one. -/
theorem reaches_head (trail : graph.Trail root chain walk) {id head : String} (inside : id ∈ chain)
    (innermost : chain.head? = some head) : graph.Reaches id head := by
  have calls := trail.calls
  clear trail
  induction chain generalizing head with
  | nil => cases inside
  | cons first rest ih =>
    cases innermost
    rcases List.mem_cons.1 inside with rfl | later
    · exact .refl
    · obtain ⟨next, head⟩ := Option.ne_none_iff_exists'.1 fun none => List.ne_nil_of_mem later (List.head?_eq_none_iff.1 none)
      obtain ⟨call, calls⟩ := List.isChain_cons.1 calls
      exact (ih later head calls).tail (call next head)

theorem tail {id : String} (trail : graph.Trail root (id :: chain) walk) : graph.Trail root chain walk :=
  ⟨trail.calls.tail, trail.distinct.of_cons, fun other inside => trail.told other (List.mem_cons_of_mem _ inside),
    trail.behind, trail.named, trail.notes, trail.followed,
    fun other inside => trail.entered other (List.mem_cons_of_mem _ inside)⟩

end Trail

structure Approach (graph : Graph) (root : String) (chain : List String) (id : String) (walk : Walk) : Prop where
  trail : graph.Trail root chain walk
  behind : graph.Reaches root id
  call : ∀ caller ∈ chain.head?, graph.Calls caller id
  single : chain = [] → ∀ node, graph.node? id = some node → node.kind.duplicable = false
  /-- A call that was followed before is followed again only behind a crowded node. -/
  crowded : ∀ caller ∈ chain.head?, walk.Noted id caller → graph.Crowded caller

variable {graph : Graph} {shared : List String} {root : String}

theorem callees_nodup (graph : Graph) (id : String) : (graph.callees id).Nodup := OrderedSet.nodup _

theorem calls_of_listed {opening : Opening} (fresh : opening.Fresh graph) {done later : List String} {callee : String}
    (listed : graph.callees opening.node.id = done ++ callee :: later) : graph.Calls opening.node.id callee :=
  ⟨contains_iff.2 ⟨opening.node, fresh.found⟩, by simp [listed]⟩

theorem Approach.begun {opening : Opening} (fresh : opening.Fresh graph)
    (approach : graph.Approach root opening.chain opening.node.id opening.start) :
    graph.Trail root (opening.node.id :: opening.chain) (opening.begun shared) := by
  obtain ⟨trail, behind, call, single, _⟩ := approach
  have told := trail.tell fresh.found behind (Walk.nextId_single opening.start shared)
  have extended := Walk.Extends.note (opening.start.tell (opening.name shared) opening.node) opening.node
    opening.chain.head? (opening.name shared)
  have here : (opening.begun shared).told.tells opening.node.id = true :=
    Narrative.tells_iff.2 ⟨opening.name shared, opening.node, by simp, rfl⟩
  refine ⟨?_, List.nodup_cons.2 ⟨fresh.closed, trail.distinct⟩, ?_, ?_, ?_, ?_, ?_, ?_⟩
  · exact List.isChain_cons.2 ⟨call, trail.calls⟩
  · intro id inside
    rcases List.mem_cons.1 inside with rfl | inside
    · exact here
    · exact extended.tells (told.told id inside)
  · simpa using! told.behind
  · simpa using! told.named
  · intro callee caller entry known
    rcases Walk.find?_note known with known | ⟨rfl, head, rfl, duplicable⟩
    · simpa using! told.notes callee caller entry known
    · exact ⟨call caller head, opening.node, by simp, rfl, duplicable⟩
  · intro callee caller noted
    rcases Walk.noted_note.1 noted with noted | ⟨rfl, head, duplicable⟩
    · exact (told.followed callee caller noted).mono extended
    · exact (told.entered caller (List.mem_of_mem_head? head)).mono extended
  · intro id inside
    rcases List.mem_cons.1 inside with rfl | inside
    · cases duplicable : opening.node.kind.duplicable with
      | false => exact Or.inl ⟨opening.node, fresh.found, duplicable, here⟩
      | true =>
        -- A node that may be told again is not the first, so a call to it is followed now.
        cases head : opening.chain.head? with
        | none => simp [single (List.head?_eq_none_iff.1 head) opening.node fresh.found] at duplicable
        | some caller => exact Or.inr ⟨caller, Walk.noted_note.2 (Or.inr ⟨rfl, head, duplicable⟩)⟩
    · exact (told.entered id inside).mono extended

/-- The law of the trail. New notes are about calls from nodes that were opened in the meantime, or about
the call that led here. -/
def trailLaw (graph : Graph) (root : String) : Law where
  before chain id walk := graph.Approach root chain id walk
  amid opening done _ walk :=
    graph.Approach root opening.chain opening.node.id opening.start ∧
      graph.Trail root (opening.node.id :: opening.chain) walk ∧ opening.start.Extends walk ∧
      ∀ callee caller, walk.Noted callee caller → opening.start.Noted callee caller ∨
        (callee = opening.node.id ∧ opening.chain.head? = some caller) ∨
        (caller = opening.node.id ∧ callee ∈ done) ∨ caller ∉ opening.node.id :: opening.chain
  after chain id walk _ later :=
    graph.Trail root chain later ∧ walk.Extends later ∧
      ∀ callee caller, later.Noted callee caller → walk.Noted callee caller ∨
        (callee = id ∧ chain.head? = some caller) ∨ caller ∉ chain

/-- A call of an open node that is still to be followed but was noted before is no call of this opening. -/
theorem noted_at_start {opening : Opening} {done later : List String} {callee : String} {walk : Walk}
    (fresh : opening.Fresh graph) (listed : graph.callees opening.node.id = done ++ callee :: later)
    (origin : ∀ callee caller, walk.Noted callee caller → opening.start.Noted callee caller ∨
      (callee = opening.node.id ∧ opening.chain.head? = some caller) ∨
      (caller = opening.node.id ∧ callee ∈ done) ∨ caller ∉ opening.node.id :: opening.chain)
    (noted : walk.Noted callee opening.node.id) : opening.start.Noted callee opening.node.id := by
  rcases origin _ _ noted with earlier | ⟨_, head⟩ | ⟨_, told⟩ | outside
  · exact earlier
  · exact absurd (List.mem_of_mem_head? head) fresh.closed
  · have distinct := listed ▸ graph.callees_nodup opening.node.id
    exact absurd rfl ((List.nodup_append.1 distinct).2.2 callee told callee List.mem_cons_self)
  · exact absurd List.mem_cons_self outside

/-- A node with a call noted before it was opened was opened before, for another of its callers. -/
private theorem crowded_of_noted {opening : Opening} {callee : String} (fresh : opening.Fresh graph)
    (approach : graph.Approach root opening.chain opening.node.id opening.start)
    (earlier : opening.start.Noted callee opening.node.id) : graph.Crowded opening.node.id := by
  rcases approach.trail.followed _ _ earlier with ⟨node, found, single, told⟩ | ⟨first, entered⟩
  · -- A node that is told once only would not have been opened again.
    obtain rfl := Option.some.inj (found.symm.trans fresh.found)
    rcases fresh.unsettled with duplicable | untold
    · simp [single] at duplicable
    · simp [told] at untold
  · obtain ⟨entry, known⟩ := Option.isSome_iff_exists.1 (Walk.find?_isSome_iff_noted.2 entered)
    obtain ⟨call, told, member, named, duplicable⟩ := approach.trail.notes _ _ _ known
    have same := approach.trail.node_eq fresh.found member named
    cases head : opening.chain.head? with
    | none =>
      have single := approach.single (List.head?_eq_none_iff.1 head) opening.node fresh.found
      simp [← same, duplicable] at single
    | some second =>
      refine ⟨⟨opening.node, fresh.found, same ▸ duplicable⟩, first, second, ?_, call, approach.call second head⟩
      rintro rfl
      rw [fresh.unreached first head] at known
      cases known

private theorem trail_step {opening : Opening} {done : List String} {callee : String} {ends last : Ends}
    {walk told relinked : Walk} {visit : Visit}
    (roster : relinked.told.roster = told.told.roster) (reached : relinked.reached = told.reached)
    (extended : told.Extends relinked) (holds : (graph.trailLaw root).amid opening done ends walk)
    (after : (graph.trailLaw root).after (opening.node.id :: opening.chain) callee walk visit told) :
    (graph.trailLaw root).amid opening (done ++ [callee]) last relinked := by
  obtain ⟨approach, _, before, origin⟩ := holds
  obtain ⟨trail, between, recent⟩ := after
  refine ⟨approach, trail.relink roster reached, (before.trans between).trans extended, ?_⟩
  intro other caller noted
  have noted : told.Noted other caller := by rwa [Walk.Noted, ← reached]
  rcases recent _ _ noted with old | ⟨rfl, head⟩ | outside
  · rcases origin _ _ old with first | this | ⟨same, member⟩ | outside
    · exact Or.inl first
    · exact Or.inr (Or.inl this)
    · exact Or.inr (Or.inr (Or.inl ⟨same, List.mem_append_left _ member⟩))
    · exact Or.inr (Or.inr (Or.inr outside))
  · cases head
    exact Or.inr (Or.inr (Or.inl ⟨rfl, by simp⟩))
  · exact Or.inr (Or.inr (Or.inr outside))

theorem trailLaw_kept (graph : Graph) (shared : List String) (root : String) :
    Law.Kept graph shared .any (graph.trailLaw root) where
  settled _ _ _ _ approach := ⟨approach.trail, .refl _, fun _ _ noted => Or.inl noted⟩
  repeated found _ _ _ approach :=
    ⟨approach.trail.tell found approach.behind (Walk.nextId_single _ _), .tell _ _ _, fun _ _ noted => Or.inl noted⟩
  reused _ _ _ _ _ approach := ⟨approach.trail, .refl _, fun _ _ noted => Or.inl noted⟩
  opened fresh _ approach := by
    refine ⟨approach, approach.begun fresh, (Walk.Extends.tell _ _ _).trans (Walk.Extends.note _ _ _ _), ?_⟩
    intro callee caller noted
    rcases Walk.noted_note.1 noted with old | ⟨same, head, _⟩
    · exact Or.inl old
    · exact Or.inr (Or.inl ⟨same, head⟩)
  called fresh listed _ holds := by
    obtain ⟨approach, trail, _, origin⟩ := holds
    have call := calls_of_listed fresh listed
    refine ⟨trail, approach.behind.tail call, ?_, nofun, ?_⟩
    · rintro caller ⟨⟩
      exact call
    · rintro caller ⟨⟩ noted
      exact crowded_of_noted fresh approach (noted_at_start fresh listed origin noted)
  branched _ _ _ _ _ holds after := trail_step (Narrative.roster_link _ _) rfl (.link _ _ _) holds after
  sequenced _ _ _ _ _ holds after := trail_step (Narrative.roster_linkAll _ _) rfl (.linkAll _ _ _) holds after
  finished {opening ends walk} fresh _ holds := by
    obtain ⟨_, trail, extended, origin⟩ := holds
    have origin : ∀ callee caller, walk.Noted callee caller → opening.start.Noted callee caller ∨
        (callee = opening.node.id ∧ opening.chain.head? = some caller) ∨ caller ∉ opening.chain := by
      intro callee caller noted
      rcases origin callee caller noted with first | this | ⟨rfl, _⟩ | outside
      · exact Or.inl first
      · exact Or.inr (Or.inl this)
      · exact Or.inr (Or.inr fresh.closed)
      · exact Or.inr (Or.inr fun inside => outside (List.mem_cons_of_mem _ inside))
    unfold finish
    split
    · split
      · exact ⟨trail.tail, extended, origin⟩
      · exact ⟨trail.tail.relink (Narrative.roster_linkAll _ _) rfl, extended.trans (.linkAll _ _ _), origin⟩
    · exact ⟨trail.tail, extended, origin⟩

end Graph

end CallChart
