import CallChart.Proofs.Linking

/-! A proof rule for the walk. A law says what holds before a node is told, while its callees are told, and
once all that is done. If each of the walk's few steps keeps a law, then the telling of every node keeps
it. A law may rest on another one that is kept already, so facts about the walk come in layers. -/

namespace CallChart

/-- A node whose callees are being told: the open calls around it, innermost first, and the walk before
the node was told. -/
structure Opening where
  chain : List String
  node : Node
  start : Walk

namespace Opening

def name (shared : List String) (opening : Opening) : String := opening.start.nextId shared opening.node

def begun (shared : List String) (opening : Opening) : Walk :=
  (opening.start.tell (opening.name shared) opening.node).note opening.node opening.chain.head? (opening.name shared)

@[simp] theorem roster_begun {shared : List String} {opening : Opening} :
    (opening.begun shared).told.roster = opening.start.told.roster ++ [(opening.name shared, opening.node)] := by
  rw [begun, Walk.told_note, Walk.roster_tell]

structure Fresh (graph : Graph) (opening : Opening) : Prop where
  found : graph.node? opening.node.id = some opening.node
  unsettled : opening.node.kind.duplicable = true ∨ opening.start.told.tells opening.node.id = false
  closed : opening.node.id ∉ opening.chain
  unreached : ∀ caller ∈ opening.chain.head?, opening.start.reached.find? (opening.node.id, caller) = none

end Opening

/-- What is said of a walk at the three kinds of moments that matter. -/
structure Law where
  /-- Before an id is told, given the open calls. -/
  before : List String → String → Walk → Prop
  /-- While the callees of a node are told, given those that are done with. -/
  amid : Opening → List String → Ends → Walk → Prop
  /-- When an id has been told, given the open calls and the walk before. -/
  after : List String → String → Walk → Visit → Walk → Prop

namespace Law

def any : Law := ⟨fun _ _ _ => True, fun _ _ _ _ => True, fun _ _ _ _ _ => True⟩

def both (first second : Law) : Law where
  before chain id walk := first.before chain id walk ∧ second.before chain id walk
  amid opening done ends walk := first.amid opening done ends walk ∧ second.amid opening done ends walk
  after chain id walk visit later := first.after chain id walk visit later ∧ second.after chain id walk visit later

/-- Every step of the walk keeps the law where it keeps the one it rests on. -/
structure Kept (graph : Graph) (shared : List String) (base law : Law) : Prop where
  settled : ∀ {chain : List String} {node : Node} {walk : Walk},
    graph.node? node.id = some node → node.kind.duplicable = false → walk.told.tells node.id = true →
    base.before chain node.id walk → law.before chain node.id walk →
    law.after chain node.id walk (.leaf node.id) walk
  repeated : ∀ {chain : List String} {node : Node} {walk : Walk},
    graph.node? node.id = some node → (node.kind.duplicable = true ∨ walk.told.tells node.id = false) →
    node.id ∈ chain → base.before chain node.id walk → law.before chain node.id walk →
    law.after chain node.id walk (.leaf (walk.nextId shared node)) (walk.tell (walk.nextId shared node) node)
  reused : ∀ {caller entry : String} {chain : List String} {node : Node} {walk : Walk},
    graph.node? node.id = some node → (node.kind.duplicable = true ∨ walk.told.tells node.id = false) →
    node.id ∉ caller :: chain → walk.reached.find? (node.id, caller) = some entry →
    base.before (caller :: chain) node.id walk → law.before (caller :: chain) node.id walk →
    law.after (caller :: chain) node.id walk ⟨entry, none⟩ walk
  opened : ∀ {opening : Opening}, opening.Fresh graph →
    base.before opening.chain opening.node.id opening.start → law.before opening.chain opening.node.id opening.start →
    law.amid opening [] { main := [opening.name shared] } (opening.begun shared)
  called : ∀ {opening : Opening} {done later : List String} {callee : String} {ends : Ends} {walk : Walk},
    opening.Fresh graph → graph.callees opening.node.id = done ++ callee :: later →
    base.amid opening done ends walk → law.amid opening done ends walk →
    law.before (opening.node.id :: opening.chain) callee walk
  branched : ∀ {opening : Opening} {done later : List String} {callee : String} {ends : Ends} {walk told : Walk}
      {visit : Visit},
    opening.Fresh graph → graph.callees opening.node.id = done ++ callee :: later →
    graph.branches opening.node callee = true →
    base.amid opening done ends walk → base.after (opening.node.id :: opening.chain) callee walk visit told →
    law.amid opening done ends walk → law.after (opening.node.id :: opening.chain) callee walk visit told →
    law.amid opening (done ++ [callee]) { ends with branches := ends.branches ++ visit.ends.getD [] }
      { told with told := told.told.link (opening.name shared) visit.entry }
  sequenced : ∀ {opening : Opening} {done later : List String} {callee : String} {ends : Ends} {walk told : Walk}
      {visit : Visit},
    opening.Fresh graph → graph.callees opening.node.id = done ++ callee :: later →
    graph.branches opening.node callee = false →
    base.amid opening done ends walk → base.after (opening.node.id :: opening.chain) callee walk visit told →
    law.amid opening done ends walk → law.after (opening.node.id :: opening.chain) callee walk visit told →
    law.amid opening (done ++ [callee])
      { ends with
        ran := true
        main := if graph.closes opening.node callee later then ends.main else visit.ends.getD ends.main }
      { told with told := told.told.linkAll ends.main visit.entry }
  finished : ∀ {opening : Opening} {ends : Ends} {walk : Walk},
    opening.Fresh graph → base.amid opening (graph.callees opening.node.id) ends walk →
    law.amid opening (graph.callees opening.node.id) ends walk →
    law.after opening.chain opening.node.id opening.start
      (Graph.finish opening.node (opening.name shared) (graph.callees opening.node.id) ends walk).1
      (Graph.finish opening.node (opening.name shared) (graph.callees opening.node.id) ends walk).2

namespace Kept

variable {graph : Graph} {shared : List String} {base law : Law}

theorem both (below : Kept graph shared .any base) (kept : Kept graph shared base law) :
    Kept graph shared .any (base.both law) where
  settled found single told _ holds :=
    ⟨below.settled found single told trivial holds.1, kept.settled found single told holds.1 holds.2⟩
  repeated found unsettled inside _ holds :=
    ⟨below.repeated found unsettled inside trivial holds.1, kept.repeated found unsettled inside holds.1 holds.2⟩
  reused found unsettled closed known _ holds :=
    ⟨below.reused found unsettled closed known trivial holds.1, kept.reused found unsettled closed known holds.1 holds.2⟩
  opened fresh _ holds := ⟨below.opened fresh trivial holds.1, kept.opened fresh holds.1 holds.2⟩
  called fresh listed _ holds := ⟨below.called fresh listed trivial holds.1, kept.called fresh listed holds.1 holds.2⟩
  branched fresh listed branch _ _ holds told :=
    ⟨below.branched fresh listed branch trivial trivial holds.1 told.1,
      kept.branched fresh listed branch holds.1 told.1 holds.2 told.2⟩
  sequenced fresh listed branch _ _ holds told :=
    ⟨below.sequenced fresh listed branch trivial trivial holds.1 told.1,
      kept.sequenced fresh listed branch holds.1 told.1 holds.2 told.2⟩
  finished fresh _ holds := ⟨below.finished fresh trivial holds.1, kept.finished fresh holds.1 holds.2⟩

private theorem tellCallees (kept : Kept graph shared .any law) {opening : Opening} (fresh : opening.Fresh graph)
    (inner : ∀ {callee : String} {walk later : Walk} {visit : Visit},
      graph.visit shared (opening.node.id :: opening.chain) callee walk = .ok (visit, later) →
      law.before (opening.node.id :: opening.chain) callee walk →
      law.after (opening.node.id :: opening.chain) callee walk visit later)
    {left : List String} {ends last : Ends} {walk later : Walk} {done : List String}
    (listed : graph.callees opening.node.id = done ++ left) (holds : law.amid opening done ends walk)
    (told : graph.tellCallees (graph.visit shared (opening.node.id :: opening.chain)) opening.node
      (opening.name shared) left ends walk = .ok (last, later)) :
    law.amid opening (graph.callees opening.node.id) last later := by
  -- Along the callees left; `done` grows by what is told.
  induction left generalizing done ends walk with
  | nil =>
    cases told
    rw [listed, List.append_nil]
    exact holds
  | cons callee rest ih =>
    have next : graph.callees opening.node.id = (done ++ [callee]) ++ rest := by rw [listed, List.append_assoc]; rfl
    unfold Graph.tellCallees at told
    split at told
    · cases told
    next visit middle visited =>
      have reached := inner visited (kept.called fresh listed trivial holds)
      split at told
      · next branch => exact ih next (kept.branched fresh listed branch trivial trivial holds reached) told
      · next plain =>
        exact ih next (kept.sequenced fresh listed (by simpa using plain) trivial trivial holds reached) told

/-- The rule: a law whose steps are kept holds of every telling. -/
theorem visit (kept : Kept graph shared .any law) {chain : List String} {id : String} {walk later : Walk} {visit : Visit}
    (told : graph.visit shared chain id walk = .ok (visit, later)) (holds : law.before chain id walk) :
    law.after chain id walk visit later := by
  -- The cases are the branches of the walk, and the recursion is the walk's own.
  rw [Graph.visit] at told
  split at told
  · cases told
  next node found =>
    obtain ⟨_, rfl⟩ := Graph.node?_some found
    split at told
    · next settled =>
      cases told
      simp only [Bool.and_eq_true, Bool.not_eq_true'] at settled
      exact kept.settled found settled.1 settled.2 trivial holds
    next unsettled =>
    have unsettled : node.kind.duplicable = true ∨ walk.told.tells node.id = false := by
      cases duplicable : node.kind.duplicable <;> simp_all
    split at told
    · next inside =>
      cases told
      exact kept.repeated found unsettled inside trivial holds
    next closed =>
    split at told
    · next entry known =>
      cases told
      obtain ⟨caller, head, known⟩ := Option.bind_eq_some_iff.1 known
      obtain ⟨rest, rfl⟩ := List.head?_eq_some_iff.1 head
      exact kept.reused found unsettled closed known trivial holds
    · next unknown =>
      have fresh : (Opening.mk chain node walk).Fresh graph := by
        refine ⟨found, unsettled, closed, ?_⟩
        intro caller head
        rw [Option.mem_def.1 head] at unknown
        exact unknown
      have begun := kept.opened fresh trivial holds
      dsimp only at told
      split at told
      · cases told
      next ends middle callees =>
        have result : Graph.finish node (walk.nextId shared node) (graph.callees node.id) ends middle = (visit, later) :=
          Except.ok.inj told
        have fewer := Graph.unseen_cons_lt found closed
        have done := kept.finished fresh trivial (tellCallees kept fresh
          (fun visited holds => Kept.visit kept visited holds) (List.nil_append _).symm begun callees)
        simpa only [Opening.name, result] using done
termination_by graph.unseen chain
decreasing_by exact fewer

end Kept

def ofRoster (holds : List (String × Node) → Prop) : Law where
  before _ _ walk := holds walk.told.roster
  amid _ _ _ walk := holds walk.told.roster
  after _ _ _ _ later := holds later.told.roster

theorem ofRoster_kept {graph : Graph} {shared : List String} {holds : List (String × Node) → Prop}
    (step : ∀ (walk : Walk) (node : Node), graph.node? node.id = some node →
      (node.kind.duplicable = true ∨ walk.told.tells node.id = false) → holds walk.told.roster →
      holds (walk.told.roster ++ [(walk.nextId shared node, node)])) :
    Kept graph shared .any (ofRoster holds) where
  settled _ _ _ _ held := held
  repeated {_ node walk} found unsettled _ _ held := by
    simpa only [ofRoster, Walk.roster_tell] using step walk node found unsettled held
  reused _ _ _ _ _ held := held
  opened {opening} fresh _ held := by
    have told := step opening.start opening.node fresh.found fresh.unsettled held
    simpa only [ofRoster, Opening.roster_begun, Opening.name] using told
  called _ _ _ held := held
  branched _ _ _ _ _ _ held := by simpa only [ofRoster, Narrative.roster_link] using held
  sequenced _ _ _ _ _ _ held := by simpa only [ofRoster, Narrative.roster_linkAll] using held
  finished _ _ held := by
    unfold Graph.finish
    split
    · split
      · exact held
      · simpa only [ofRoster, Narrative.roster_linkAll] using held
    · exact held

end Law

end CallChart
