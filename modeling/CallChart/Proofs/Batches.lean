import Mathlib.Data.List.Permutation
import CallChart.Tasks
import CallChart.Proofs.Places
import CallChart.Proofs.RoundTrip

/-! Diagrams of several graphs, written to one directory. All inputs are read before the first diagram is written, and
each diagram goes to a file that is named after its input alone. Inputs of one name from different directories
therefore share a file, and the last of them has it. -/

namespace CallChart

namespace FileTree

variable {α β : Type} {tree middle later : FileTree} {change : FileTree → Except SystemError FileTree}

theorem run_bind (action : StateM FileTree α) (next : α → StateM FileTree β) (tree : FileTree) :
    (action >>= next).run tree = (next (action.run tree).1).run (action.run tree).2 := rfl

theorem run_get (tree : FileTree) : (get : StateM FileTree FileTree).run tree = (tree, tree) := rfl

theorem run_attempt_ok (changed : change tree = .ok later) : (attempt change).run tree = (.ok (), later) := by
  rw [attempt, run_bind, run_get, changed]
  rfl

theorem run_attempt_error {fault : SystemError} (failed : change tree = .error fault) :
    (attempt change).run tree = (.error fault, tree) := by
  rw [attempt, run_bind, run_get, failed]
  rfl

theorem run_attempt_eq_ok (done : (attempt change).run tree = (.ok (), later)) : change tree = .ok later := by
  cases result : change tree with
  | ok next =>
    rw [run_attempt_ok result] at done
    cases done
    rfl
  | error fault =>
    rw [run_attempt_error result] at done
    cases done

/-- Whatever tree it starts from, an action does no more than to make directories. -/
def Prepares (action : StateM FileTree α) : Prop := ∀ tree, Prepared tree (action.run tree).2

namespace Prepares

theorem pure (value : α) : Prepares (Pure.pure value) := Prepared.refl

theorem bind {action : StateM FileTree α} {next : α → StateM FileTree β} (first : Prepares action)
    (rest : ∀ value, Prepares (next value)) : Prepares (action >>= next) := by
  intro tree
  exact (first tree).trans (rest _ _)

theorem makeDirectory (path : String) : Prepares (Disk.makeDirectory path) := by
  intro tree
  change Prepared tree ((attempt (·.makeDirectory path)).run tree).2
  cases result : tree.makeDirectory path with
  | ok next =>
    rw [run_attempt_ok result]
    exact prepared_of_makeDirectory result
  | error fault =>
    rw [run_attempt_error result]
    exact .refl tree

theorem isDirectory (path : String) : Prepares (Disk.isDirectory path) := Prepared.refl

theorem ensureDirectory (path : String) : Prepares (Disk.ensureDirectory path) := by
  apply (makeDirectory path).bind
  intro made
  cases made with
  | ok _ => exact pure _
  | error fault =>
    apply (isDirectory path).bind
    intro there
    cases there <;> exact pure _

theorem ensureDirectories (paths : List String) : Prepares (Disk.ensureDirectories paths) := by
  induction paths with
  | nil => exact pure _
  | cons path parents ih =>
    rw [Disk.ensureDirectories]
    split
    · exact pure _
    apply (ensureDirectory path).bind
    intro made
    split
    · apply ih.bind
      intro above
      split
      · exact ensureDirectory path
      · exact pure _
    · exact pure _

end Prepares

structure Written (tree later : FileTree) (path : String) (place : Place) (content : ByteArray) : Prop where
  grown : tree.directories ⊆ later.directories
  leads : later.Leads path place
  holds : later.Holds place content
  kept : ∀ other before, place ≠ other → tree.Holds other before → later.Holds other before
  elsewhere : ∀ other, place ≠ other → later.files.find? other = tree.files.find? other

theorem writeText_eq_ok {path text : String}
    (done : (Disk.writeText (m := StateM FileTree) path text).run tree = (.ok (), later)) :
    ∃ place, Written tree later path place text.toUTF8 := by
  rw [Disk.writeText, run_bind] at done
  have prepared := Prepares.ensureDirectories (Path.directories path) tree
  split at done
  · cases done
  obtain ⟨place, leads, free, rfl⟩ := write_eq_ok (run_attempt_eq_ok done)
  refine ⟨place, prepared.grown, leads.mono (List.Subset.refl _), holds_insert free _, ?_, ?_⟩
  · intro other before apart holds
    exact (holds.prepared prepared).insert apart _
  · intro other apart
    rw [OrderedMap.find?_insert, if_neg apart, prepared.files]

theorem run_task_bind {task : Task (StateM FileTree) α} {next : α → Task (StateM FileTree) β} {value : α}
    (first : task.run.run tree = (.ok value, middle)) :
    (task >>= next).run.run tree = (next value).run.run middle := by
  change (task.run >>= ExceptT.bindCont next).run tree = _
  rw [run_bind, first]
  rfl

theorem run_context {doing : String} {task : Task (StateM FileTree) α} {value : α}
    (done : task.run.run tree = (.ok value, later)) :
    (Disk.context doing task).run.run tree = (.ok value, later) := by
  change (during doing (task.run.run tree).1, (task.run.run tree).2) = _
  rw [done]
  rfl

theorem run_step {operation : StateM FileTree (Except SystemError α)} {value : α}
    (done : operation.run tree = (.ok value, later)) :
    (Disk.step operation).run.run tree = (.ok value, later) := by
  change (failing Cause.system (operation.run tree).1, (operation.run tree).2) = _
  rw [done]
  rfl

theorem run_readText {path source : String} {content : ByteArray} (found : tree.read path = .ok content)
    (decoded : String.fromUTF8? content = some source) :
    (Disk.readText (m := StateM FileTree) path).run.run tree = (.ok source, tree) := by
  have opened : (Disk.read (m := StateM FileTree) path).run tree = (.ok content, tree) := congrArg (·, tree) found
  rw [Disk.readText, run_task_bind (run_step opened), decoded]
  rfl

/-- A file holds a graph, and its diagram has the given text. -/
def Draws (tree : FileTree) (format : Format) (style : Style) (input text : String) : Prop :=
  ∃ content source graph, tree.read input = .ok content ∧ String.fromUTF8? content = some source ∧
    Graph.ofText source = .ok graph ∧ graph.render format style = .ok text

theorem draws_of_document {format : Format} {style : Style} {input text : String} {doc : GraphDoc} {graph : Graph}
    (found : tree.read input = .ok doc.toJson.compact.toUTF8) (read : doc.toGraph = .ok graph)
    (shown : graph.render format style = .ok text) : tree.Draws format style input text := by
  have decoded : String.fromUTF8? doc.toJson.compact.toUTF8 = some doc.toJson.compact :=
    dif_pos doc.toJson.compact.isValidUTF8
  have source : Graph.ofText doc.toJson.compact = .ok graph :=
    Graph.ofText_eq_ok_iff.2 ⟨doc, (GraphDoc.decoder_reads doc).run, read⟩
  exact ⟨_, _, graph, found, decoded, source, shown⟩

end FileTree

namespace Tasks

open FileTree

variable {format : Format} {style : Style} {directory input text : String} {inputs texts : List String}
  {tree middle later : FileTree} {pairs : List (String × String)} {folder : Place}

theorem slash_notMem_outputName (format : Format) (input : String) : '/' ∉ (outputName format input).toList := by
  have stem : '/' ∉ (outputStem input).toList := by
    rw [outputStem]
    cases named : Path.fileName? input with
    | none => simp
    | some name =>
      intro inside
      exact Path.slash_notMem (Path.fileName?_mem named) (Path.stem_subset name inside)
  cases format <;> simp [outputName, Format.extension, stem]

theorem two_lt_length_outputName (format : Format) (input : String) : 2 < (outputName format input).length := by
  have ending : 2 ≤ format.extension.length := by cases format <;> decide
  have point : ".".length = 1 := rfl
  rw [outputName, String.length_append, String.length_append, point]
  omega

def outputPlace (folder : Place) (format : Format) (input : String) : Place := folder ++ [outputName format input]

theorem outputPlace_inj {first second : String} :
    outputPlace folder format first = outputPlace folder format second ↔ outputStem first = outputStem second := by
  simp [outputPlace, outputName, ← String.toList_inj]

theorem nodup_map_outputPlace :
    (inputs.map (outputPlace folder format)).Nodup ↔ (inputs.map outputStem).Nodup := by
  simp only [List.Nodup, List.pairwise_map, ne_eq, outputPlace_inj]

/-- A diagram is found in the folder that the directory leads to, under its own name. -/
theorem exists_outputPlace {place : Place} (leads : tree.Leads (outputPath format directory input) place) :
    ∃ folder, tree.descend (start directory) (Path.names directory) = .ok folder ∧
      place = outputPlace folder format input := by
  have long := two_lt_length_outputName format input
  apply leads.of_join (slash_notMem_outputName format input) <;>
  · intro same
    rw [same] at long
    exact absurd long (by decide)

theorem run_renderInput (drawn : tree.Draws format style input text) :
    (renderInput (m := StateM FileTree) format style input).run.run tree = (.ok text, tree) := by
  obtain ⟨content, source, graph, found, decoded, read, shown⟩ := drawn
  have loaded : (loadGraph (m := StateM FileTree) input).run.run tree = (.ok graph, tree) := by
    rw [loadGraph, run_task_bind (run_context (run_readText found decoded)), read]
    rfl
  rw [renderInput, run_task_bind loaded, shown]
  rfl

/-- Drawing changes no file. -/
theorem run_renderBatch (drawn : List.Forall₂ (tree.Draws format style) inputs texts) :
    (renderBatch (m := StateM FileTree) format style inputs).run tree =
      ((inputs.zip texts).map fun pair => (pair.1, .ok pair.2), tree) := by
  rw [renderBatch]
  induction drawn with
  | nil => rfl
  | @cons input text _ _ first rest ih =>
    have alone : (do return (input, ← (renderInput format style input).run) :
        StateM FileTree (String × Except Failure String)).run tree = ((input, .ok text), tree) := by
      rw [run_bind, run_renderInput first]
      rfl
    rw [List.mapM_cons, run_bind, alone, run_bind, ih]
    rfl

/-- Diagrams are written to a directory one after the other, and no write fails. -/
inductive Saves (format : Format) (directory : String) : FileTree → List (String × String) → FileTree → Prop where
  | done (tree : FileTree) : Saves format directory tree [] tree
  | next {tree middle later : FileTree} {input text : String} {pairs : List (String × String)}
      (written : (Disk.writeText (m := StateM FileTree) (outputPath format directory input) text).run tree =
        (.ok (), middle))
      (rest : Saves format directory middle pairs later) :
      Saves format directory tree ((input, text) :: pairs) later

namespace Saves

theorem run_writeAll (saved : Saves format directory tree pairs later) :
    (writeAll (m := StateM FileTree) format directory (pairs.map fun pair => (pair.1, .ok pair.2))).run tree =
      (([], .ok ()), later) := by
  induction saved with
  | done tree => rfl
  | next written rest ih =>
    rw [List.map_cons, writeAll, run_bind, run_context (run_step written)]
    exact ih

theorem grown (saved : Saves format directory tree pairs later) : tree.directories ⊆ later.directories := by
  induction saved with
  | done tree => exact List.Subset.refl _
  | next written rest ih =>
    obtain ⟨place, written⟩ := writeText_eq_ok written
    exact List.Subset.trans written.grown ih

theorem split {before after : List (String × String)} (saved : Saves format directory tree (before ++ after) later) :
    ∃ middle, Saves format directory tree before middle ∧ Saves format directory middle after later := by
  induction before generalizing tree with
  | nil => exact ⟨tree, .done tree, saved⟩
  | cons pair before ih =>
    cases saved with
    | next written rest =>
      obtain ⟨middle, first, second⟩ := ih rest
      exact ⟨middle, .next written first, second⟩

/-- All diagrams go to one folder. -/
theorem exists_folder (saved : Saves format directory tree pairs later) :
    ∃ folder, ∀ pair ∈ pairs, later.Leads (outputPath format directory pair.1) (outputPlace folder format pair.1) := by
  have each : ∀ pair ∈ pairs, ∃ place, later.Leads (outputPath format directory pair.1) place := by
    induction saved with
    | done tree => exact List.forall_mem_nil _
    | next written rest ih =>
      obtain ⟨place, written⟩ := writeText_eq_ok written
      exact List.forall_mem_cons.2 ⟨⟨place, written.leads.mono rest.grown⟩, ih⟩
  -- The directory is followed in the last tree, where all paths lead where they led when they were written to.
  cases found : later.descend (start directory) (Path.names directory) with
  | error fault =>
    refine ⟨[], fun pair listed => ?_⟩
    obtain ⟨place, leads⟩ := each pair listed
    obtain ⟨folder, walked, _⟩ := exists_outputPlace leads
    cases found.symm.trans walked
  | ok folder =>
    refine ⟨folder, fun pair listed => ?_⟩
    obtain ⟨place, leads⟩ := each pair listed
    obtain ⟨same, walked, rfl⟩ := exists_outputPlace leads
    cases found.symm.trans walked
    exact leads

section Places

variable (saved : Saves format directory tree pairs later)
  (within : ∀ pair ∈ pairs, later.Leads (outputPath format directory pair.1) (outputPlace folder format pair.1))

include saved within

/-- What stands outside of the places of the diagrams stays. -/
theorem kept {place : Place} (apart : ∀ pair ∈ pairs, outputPlace folder format pair.1 ≠ place) :
    (∀ content, tree.Holds place content → later.Holds place content) ∧
      later.files.find? place = tree.files.find? place := by
  induction saved with
  | done tree => exact ⟨fun _ => id, rfl⟩
  | next written rest ih =>
    obtain ⟨here, within⟩ := List.forall_mem_cons.1 within
    obtain ⟨other, apart⟩ := List.forall_mem_cons.1 apart
    obtain ⟨first, written⟩ := writeText_eq_ok written
    -- The place written to is the one that the path still leads to in the end.
    obtain rfl := here.unique (written.leads.mono rest.grown)
    obtain ⟨holds, unchanged⟩ := ih within apart
    refine ⟨?_, unchanged.trans (written.elsewhere place other)⟩
    intro content before
    exact holds content (written.kept place content other before)

/-- The last of the diagrams that share a file is the one that is found there. -/
theorem read_last {before after : List (String × String)} (listed : pairs = before ++ (input, text) :: after)
    (last : ∀ pair ∈ after, outputStem pair.1 ≠ outputStem input) :
    later.read (outputPath format directory input) = .ok text.toUTF8 := by
  subst listed
  obtain ⟨_, within⟩ := List.forall_mem_append.1 within
  obtain ⟨here, within⟩ := List.forall_mem_cons.1 within
  obtain ⟨middle, _, saved⟩ := saved.split
  cases saved with
  | next written rest =>
    obtain ⟨place, written⟩ := writeText_eq_ok written
    obtain rfl := here.unique (written.leads.mono rest.grown)
    have apart : ∀ pair ∈ after, outputPlace folder format pair.1 ≠ outputPlace folder format input := by
      intro pair later same
      exact last pair later (outputPlace_inj.1 same)
    exact here.read ((rest.kept within apart).1 _ written.holds)

end Places

end Saves

theorem run_renderMany (drawn : List.Forall₂ (tree.Draws format style) inputs texts)
    (saved : Saves format directory tree (inputs.zip texts) later) :
    (renderMany (m := StateM FileTree) format style inputs directory).run tree = (([], .ok ()), later) := by
  have none : (((inputs.zip texts).map fun pair => ((pair.1, .ok pair.2) : String × Except Failure String)).filter
      fun item => !item.2.isOk).length = 0 := by
    rw [List.length_eq_zero_iff, List.filter_eq_nil_iff, List.forall_mem_map]
    intro pair _
    exact Bool.false_ne_true
  rw [renderMany, run_bind, run_renderBatch drawn, run_bind, saved.run_writeAll]
  simp only [none]
  rfl

/-- When all inputs can be drawn and all diagrams can be written, the task succeeds. Each diagram goes to a file
named after the stem of its input, in one folder; the last diagram that goes to a file is what it holds, and no other
file changes. So every diagram has a file of its own, which holds it, exactly when all stems differ. -/
theorem renderMany_files (drawn : List.Forall₂ (tree.Draws format style) inputs texts)
    (saved : Saves format directory tree (inputs.zip texts) later) :
    (renderMany (m := StateM FileTree) format style inputs directory).run tree = (([], .ok ()), later) ∧
    ∃ folder : Place,
      (∀ input ∈ inputs, later.Leads (outputPath format directory input) (outputPlace folder format input)) ∧
      (∀ place ∉ inputs.map (outputPlace folder format), later.files.find? place = tree.files.find? place) ∧
      (∀ before input text after, inputs.zip texts = before ++ (input, text) :: after →
        (∀ pair ∈ after, outputStem pair.1 ≠ outputStem input) →
        later.read (outputPath format directory input) = .ok text.toUTF8) ∧
      ((inputs.map outputStem).Nodup ↔
        (inputs.map (outputPlace folder format)).Nodup ∧
        ∀ pair ∈ inputs.zip texts, later.read (outputPath format directory pair.1) = .ok pair.2.toUTF8) := by
  obtain ⟨folder, within⟩ := saved.exists_folder
  have firsts : (inputs.zip texts).map Prod.fst = inputs := List.map_fst_zip (Nat.le_of_eq drawn.length_eq)
  refine ⟨run_renderMany drawn saved, folder, ?_, ?_, ?_, ?_⟩
  · intro input listed
    rw [← firsts] at listed
    obtain ⟨pair, paired, rfl⟩ := List.mem_map.1 listed
    exact within pair paired
  · intro place outside
    apply (saved.kept within _).2
    intro pair listed same
    apply outside
    rw [← same, ← firsts, List.map_map]
    exact List.mem_map_of_mem listed
  · intro before input text after listed last
    exact saved.read_last within listed last
  · rw [nodup_map_outputPlace]
    refine ⟨fun distinct => ⟨distinct, ?_⟩, And.left⟩
    intro pair listed
    obtain ⟨before, after, listed⟩ := List.append_of_mem listed
    apply saved.read_last within listed
    intro other later same
    rw [← firsts, listed, List.map_map, List.map_append, List.map_cons] at distinct
    obtain ⟨_, rest, _⟩ := List.nodup_append.1 distinct
    apply (List.nodup_cons.1 rest).1
    rw [Function.comp_apply, ← same]
    exact List.mem_map_of_mem later

def lone (id : String) : GraphDoc := ⟨[.brief id .start [] []]⟩

def opening : String := "flowchart TD\nclick OPEN call focusOn(1)"

def sending : String := "flowchart TD\nclick SEND call focusOn(1)"

theorem draws_lone {id text : String} (known : (id, text) ∈ [("OPEN", opening), ("SEND", sending)])
    (found : tree.read input = .ok (lone id).toJson.compact.toUTF8) : tree.Draws .interactive {} input text := by
  rcases List.mem_pair.1 known with same | same <;>
  · cases same
    refine draws_of_document found rfl ?_
    cbv

def neighbours (name : String) : FileTree :=
  (({} : FileTree).withFile ["a", "main.json"] (lone "OPEN").toJson.compact.toUTF8).withFile ["b", name]
    (lone "SEND").toJson.compact.toUTF8

theorem neighbours_saved :
    List.Forall₂ ((neighbours "side.json").Draws .interactive {}) ["a/main.json", "b/side.json"] [opening, sending] ∧
    ∃ later, Saves .interactive "out" (neighbours "side.json") [("a/main.json", opening), ("b/side.json", sending)] later ∧
      (renderMany (m := StateM FileTree) .interactive {} ["a/main.json", "b/side.json"] "out").run
        (neighbours "side.json") = (([], .ok ()), later) ∧
      later.read "out/main.mmd" = .ok opening.toUTF8 ∧ later.read "out/side.mmd" = .ok sending.toUTF8 := by
  have drawn : List.Forall₂ ((neighbours "side.json").Draws .interactive {}) ["a/main.json", "b/side.json"]
      [opening, sending] :=
    .cons (draws_lone (by simp) rfl) (.cons (draws_lone (by simp) rfl) .nil)
  have written : (Disk.writeText (m := StateM FileTree) (outputPath .interactive "out" "a/main.json") opening).run
      (neighbours "side.json") =
        (.ok (), (neighbours "side.json").withFile ["out", "main.mmd"] opening.toUTF8) := rfl
  have saved : Saves .interactive "out" (neighbours "side.json") [("a/main.json", opening), ("b/side.json", sending)]
      (((neighbours "side.json").withFile ["out", "main.mmd"] opening.toUTF8).withFile ["out", "side.mmd"]
        sending.toUTF8) :=
    .next written (.next rfl (.done _))
  obtain ⟨finished, _, _, _, _, apart⟩ := renderMany_files drawn saved
  have own := (apart.1 (by decide)).2
  have first : outputPath .interactive "out" "a/main.json" = "out/main.mmd" := rfl
  have second : outputPath .interactive "out" "b/side.json" = "out/side.mmd" := rfl
  have opened := own ("a/main.json", opening) List.mem_cons_self
  have sent := own ("b/side.json", sending) (List.mem_cons_of_mem _ List.mem_cons_self)
  simp only [first] at opened
  simp only [second] at sent
  exact ⟨drawn, _, saved, finished, opened, sent⟩

/-- Inputs of one name share a file: the first diagram is nowhere, though the task succeeds. -/
theorem namesakes_overwritten :
    List.Forall₂ ((neighbours "main.json").Draws .interactive {}) ["a/main.json", "b/main.json"] [opening, sending] ∧
    (renderMany (m := StateM FileTree) .interactive {} ["a/main.json", "b/main.json"] "out").run
        (neighbours "main.json") =
      (([], .ok ()), (neighbours "main.json").withFile ["out", "main.mmd"] sending.toUTF8) := by
  have drawn : List.Forall₂ ((neighbours "main.json").Draws .interactive {}) ["a/main.json", "b/main.json"]
      [opening, sending] :=
    .cons (draws_lone (by simp) rfl) (.cons (draws_lone (by simp) rfl) .nil)
  have written : (Disk.writeText (m := StateM FileTree) (outputPath .interactive "out" "a/main.json") opening).run
      (neighbours "main.json") =
        (.ok (), (neighbours "main.json").withFile ["out", "main.mmd"] opening.toUTF8) := rfl
  exact ⟨drawn, run_renderMany drawn (.next written (.next rfl (.done _)))⟩

end Tasks

end CallChart
