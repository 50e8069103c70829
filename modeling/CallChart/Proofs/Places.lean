import CallChart.Files.Tree

/-! Where paths lead in a tree of files. A name in a directory is found at the place of the directory followed by
the name, whatever else the tree holds, and it stays there as long as no directory goes away. -/

namespace CallChart

namespace Path

variable {directory name : String}

private theorem notMem_of_mem_splitOn {char : Char} {chars part : List Char} (listed : part ∈ chars.splitOn char) :
    char ∉ part := by
  induction chars generalizing part with
  | nil =>
    rw [List.splitOn_nil, List.mem_singleton] at listed
    simp [listed]
  | cons first rest ih =>
    rw [List.splitOn_cons_eq_if_modifyHead] at listed
    split at listed
    · rcases List.mem_cons.1 listed with rfl | later
      · exact List.not_mem_nil
      · exact ih later
    · next other =>
      cases parts : rest.splitOn char with
      | nil => exact absurd parts (List.splitOn_ne_nil char rest)
      | cons head tail =>
        rw [parts] at listed ih
        rcases List.mem_cons.1 listed with rfl | later
        · intro inside
          rcases List.mem_cons.1 inside with same | inside
          · exact other (beq_iff_eq.2 same.symm)
          · exact ih List.mem_cons_self inside
        · exact ih (List.mem_cons_of_mem _ later)

/-- A segment holds no slash. -/
theorem slash_notMem {path segment : String} (part : segment ∈ segments path) : '/' ∉ segment.toList := by
  obtain ⟨chars, listed, rfl⟩ := List.mem_map.1 part
  rw [String.toList_ofList]
  exact notMem_of_mem_splitOn listed

private theorem trimmed_subset (parts : List String) : trimmed parts ⊆ parts := by
  cases parts with
  | nil => exact List.Subset.refl _
  | cons first rest =>
    apply List.cons_subset_cons
    intro part listed
    exact List.mem_reverse.1 ((List.dropWhile_sublist _).subset (List.mem_reverse.1 listed))

theorem fileName?_mem {path : String} (named : fileName? path = some name) : name ∈ segments path := by
  rw [fileName?] at named
  split at named
  · next last found =>
    split at named
    · cases named
    cases named
    obtain ⟨parts, kept, ends⟩ := Option.bind_eq_some_iff.1 found
    apply trimmed_subset
    rw [named?] at kept
    split at kept
    · cases kept
    · cases kept
    · cases kept
      exact List.mem_of_getLast? ends
  · cases named

theorem stem_subset (name : String) : (stem name).toList ⊆ name.toList := by
  rw [stem]
  split
  · exact List.Subset.refl _
  · rw [String.toList_ofList]
    intro char listed
    exact List.mem_reverse.1 (List.mem_of_mem_drop (List.mem_reverse.1 listed))

theorem segments_append_slash (before after : String) :
    segments (before ++ "/" ++ after) = segments before ++ segments after := by
  simp [segments, List.splitOn_append_cons_self]

theorem segments_of_plain (plain : '/' ∉ name.toList) : segments name = [name] := by
  rw [segments, List.splitOn_eq_singleton plain, List.map_singleton, String.ofList_toList]

theorem names_of_plain (plain : '/' ∉ name.toList) (present : name ≠ "") : names name = [name] := by
  simp [names, segments_of_plain plain, present]

private theorem eq_append_slash (ends : slashed directory = true) : ∃ before, directory = before ++ "/" := by
  obtain ⟨chars, same⟩ := List.getLast?_eq_some_iff.1 (of_decide_eq_true ends)
  refine ⟨String.ofList chars, ?_⟩
  rw [← String.toList_inj, same]
  simp

private theorem not_rooted (plain : '/' ∉ name.toList) : rooted name = false := by
  apply decide_eq_false
  intro first
  exact plain (List.mem_of_head? first)

theorem names_join (plain : '/' ∉ name.toList) (present : name ≠ "") :
    names (join directory name) = names directory ++ [name] := by
  unfold join
  split
  · next start =>
    rw [not_rooted plain, Bool.or_false, decide_eq_true_eq] at start
    rw [names_of_plain plain present, start]
    rfl
  split
  · next ends =>
    obtain ⟨before, rfl⟩ := eq_append_slash ends
    have trailing : segments (before ++ "/") = segments before ++ [""] := by
      simpa [segments_of_plain] using segments_append_slash before ""
    simp [names, segments_append_slash, segments_of_plain plain, trailing, present]
  · simp [names, segments_append_slash, segments_of_plain plain, present]

theorem rooted_join (plain : '/' ∉ name.toList) : rooted (join directory name) = rooted directory := by
  unfold join
  split
  · next start =>
    rw [not_rooted plain, Bool.or_false, decide_eq_true_eq] at start
    rw [not_rooted plain, start]
    rfl
  next start =>
  have inner : directory.toList ≠ [] := by
    intro empty
    simp [String.toList_eq_nil_iff.1 empty] at start
  obtain ⟨first, rest, same⟩ := List.exists_cons_of_ne_nil inner
  split <;> simp [rooted, same]

end Path

namespace FileTree

variable {tree later : FileTree} {directory name path : String} {place : Place}

theorem isDirectoryAt_mono (grown : tree.directories ⊆ later.directories) (there : tree.isDirectoryAt place = true) :
    later.isDirectoryAt place = true := by
  rw [isDirectoryAt, Bool.or_eq_true, decide_eq_true_eq] at there ⊢
  exact there.imp_right (@grown place)

/-- Names that lead somewhere lead there still when directories are added. -/
theorem descend_mono (grown : tree.directories ⊆ later.directories) {names : List String} {start last : Place}
    (leads : tree.descend start names = .ok last) : later.descend start names = .ok last := by
  induction names generalizing start with
  | nil => exact leads
  | cons name rest ih =>
    rw [descend] at leads ⊢
    cases next : child start name with
    | error fault => simp [next, bind, Except.bind] at leads
    | ok place =>
      simp only [next, bind, Except.bind] at leads ⊢
      split at leads
      · next there =>
        rw [if_pos (isDirectoryAt_mono grown there)]
        exact ih leads
      · split at leads <;> cases leads

theorem target_eq_ok_iff {target : Target} :
    tree.target path = .ok target ↔
      (path ≠ "" ∧ '\x00' ∉ path.toList ∧ path.utf8ByteSize ≤ 4095) ∧
      tree.descend (start path) (Path.names path).dropLast = .ok target.directory ∧
      target.name = (Path.names path).getLast?.getD "." ∧ target.slash = Path.slashed path := by
  obtain ⟨inside, name, slash⟩ := target
  rw [FileTree.target]
  by_cases empty : path = ""
  · simp [empty, bind, Except.bind]
  by_cases null : '\x00' ∈ path.toList
  · simp [empty, null, bind, Except.bind]
  by_cases short : path.utf8ByteSize ≤ 4095
  · cases walked : tree.descend (start path) (Path.names path).dropLast with
    | error fault => simp [empty, null, Nat.not_lt.2 short, walked, bind, Except.bind]
    | ok last => simp [empty, null, Nat.not_lt.2 short, short, walked, bind, Except.bind, pure, Except.pure, eq_comm]
  · simp [empty, null, Nat.not_le.1 short, short, bind, Except.bind]

/-- A path leads to a place where a file may stand. -/
def Leads (tree : FileTree) (path : String) (place : Place) : Prop :=
  ∃ target, tree.target path = .ok target ∧ target.slash = false ∧ target.place = .ok place

theorem Leads.mono (leads : tree.Leads path place) (grown : tree.directories ⊆ later.directories) :
    later.Leads path place := by
  obtain ⟨target, found, plain, here⟩ := leads
  refine ⟨target, ?_, plain, here⟩
  rw [target_eq_ok_iff] at found ⊢
  exact ⟨found.1, descend_mono grown found.2.1, found.2.2⟩

theorem Leads.unique {other : Place} (leads : tree.Leads path place) (again : tree.Leads path other) : place = other := by
  obtain ⟨target, found, _, here⟩ := leads
  obtain ⟨same, refound, _, there⟩ := again
  cases found.symm.trans refound
  exact Except.ok.inj (here.symm.trans there)

/-- A name in a directory is at the place of the directory, followed by the name. -/
theorem Leads.of_join (plain : '/' ∉ name.toList) (present : name ≠ "") (here : name ≠ ".") (above : name ≠ "..")
    (leads : tree.Leads (Path.join directory name) place) :
    ∃ folder, tree.descend (start directory) (Path.names directory) = .ok folder ∧ place = folder ++ [name] := by
  obtain ⟨target, found, _, ends⟩ := leads
  obtain ⟨_, walked, named, _⟩ := target_eq_ok_iff.1 found
  rw [Path.names_join plain present] at walked named
  rw [start, Path.rooted_join plain, List.dropLast_concat] at walked
  rw [List.getLast?_concat, Option.getD_some] at named
  refine ⟨target.directory, walked, ?_⟩
  rw [Target.place, named, child, if_neg here, if_neg above] at ends
  split at ends
  · cases ends
  · exact (Except.ok.inj ends).symm

def Holds (tree : FileTree) (place : Place) (content : ByteArray) : Prop :=
  tree.isDirectoryAt place = false ∧ tree.files.find? place = some content

theorem Leads.read {content : ByteArray} (leads : tree.Leads path place) (holds : tree.Holds place content) :
    tree.read path = .ok content := by
  obtain ⟨target, found, plain, here⟩ := leads
  simp [FileTree.read, found, here, holds.1, holds.2, plain, bind, Except.bind, pure, Except.pure]

theorem write_eq_ok {content : ByteArray} (written : tree.write path content = .ok later) :
    ∃ place, tree.Leads path place ∧ tree.isDirectoryAt place = false ∧
      later = { tree with files := tree.files.insert place content } := by
  rw [write] at written
  cases found : tree.target path with
  | error fault => simp [found, bind, Except.bind] at written
  | ok target =>
    simp only [found, bind, Except.bind] at written
    split at written
    · cases written
    next plain =>
    rw [Bool.not_eq_true, Bool.or_eq_false_iff] at plain
    cases here : target.place with
    | error fault => simp [here] at written
    | ok place =>
      simp only [here, pure, Except.pure] at written
      split at written
      · cases written
      · next free =>
        exact ⟨place, ⟨target, found, plain.2, here⟩, Bool.eq_false_iff.2 free, (Except.ok.inj written).symm⟩

theorem holds_insert (free : tree.isDirectoryAt place = false) (content : ByteArray) :
    ({ tree with files := tree.files.insert place content } : FileTree).Holds place content := by
  refine ⟨free, ?_⟩
  rw [OrderedMap.find?_insert, if_pos rfl]

theorem Holds.insert {other : Place} {content : ByteArray} (holds : tree.Holds place content) (apart : other ≠ place)
    (replaced : ByteArray) : ({ tree with files := tree.files.insert other replaced } : FileTree).Holds place content := by
  refine ⟨holds.1, ?_⟩
  rw [OrderedMap.find?_insert, if_neg apart, holds.2]

/-- What making directories does to a tree: there are more of them, but none where a file stands. -/
structure Prepared (tree later : FileTree) : Prop where
  grown : tree.directories ⊆ later.directories
  files : later.files = tree.files
  apart : ∀ place, later.isDirectoryAt place = true → tree.isDirectoryAt place = true ∨ tree.files.find? place = none

theorem Prepared.refl (tree : FileTree) : Prepared tree tree :=
  ⟨List.Subset.refl _, rfl, fun _ => Or.inl⟩

theorem Prepared.trans {middle : FileTree} (first : Prepared tree middle) (second : Prepared middle later) :
    Prepared tree later := by
  refine ⟨List.Subset.trans first.grown second.grown, second.files.trans first.files, ?_⟩
  intro place there
  rcases second.apart place there with before | free
  · exact first.apart place before
  · exact .inr (first.files ▸ free)

theorem Holds.prepared {content : ByteArray} (holds : tree.Holds place content) (prepared : Prepared tree later) :
    later.Holds place content := by
  refine ⟨Bool.eq_false_iff.2 ?_, prepared.files ▸ holds.2⟩
  intro there
  rcases prepared.apart place there with before | free
  · exact Bool.eq_false_iff.1 holds.1 before
  · cases holds.2.symm.trans free

theorem prepared_of_makeDirectory (made : tree.makeDirectory path = .ok later) : Prepared tree later := by
  rw [makeDirectory] at made
  cases found : tree.target path with
  | error fault => simp [found, bind, Except.bind] at made
  | ok target =>
    cases here : target.place with
    | error fault => simp [found, here, bind, Except.bind] at made
    | ok place =>
      simp only [found, here, bind, Except.bind] at made
      split at made
      · cases made
      next free =>
      cases made
      simp only [Bool.or_eq_true, not_or, Option.not_isSome_iff_eq_none] at free
      refine ⟨List.subset_append_left _ _, rfl, ?_⟩
      intro other there
      simp only [isDirectoryAt, List.mem_append, List.mem_singleton, Bool.or_eq_true, decide_eq_true_eq] at there ⊢
      rcases there with above | old | rfl
      · exact .inl (.inl above)
      · exact .inl (.inr old)
      · exact .inr free.2

end FileTree

end CallChart
