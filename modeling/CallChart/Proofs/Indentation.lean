import CallChart.Proofs.Streaming
import CallChart.Wire.DiagramDoc

/-! Indented text is read back. What a printed value spells is the value itself, however its lines are indented, so a
diagram that is written as JSON is always read again. -/

namespace CallChart

namespace Json

open Reader

variable {depth level : Nat} {before rest : List Char} {char : Char}

theorem dropWhile_blanks {blanks : List Char} (blank : ∀ char ∈ blanks, isBlank char) (visible : isBlank char = false) :
    (blanks ++ char :: rest).dropWhile isBlank = char :: rest := by
  rw [List.dropWhile_append_of_pos blank, List.dropWhile_cons_of_neg (by simp [visible])]

theorem blank_newLine (level : Nat) : ∀ char ∈ (newLine level).toList, isBlank char := by
  intro char member
  simp only [newLine, String.toList_append, String.toList_ofList, List.mem_append, List.mem_replicate] at member
  rcases member with first | ⟨-, rfl⟩
  · rw [List.mem_singleton.1 first]
    rfl
  · rfl

/-- A text is taken as a value, and begins with what cannot close a list. -/
structure Spells (depth : Nat) (text : List Char) (json : Json) : Prop where
  begins : ∃ char more, text = char :: more ∧ isBlank char = false ∧ char ≠ ']'
  takes : ∀ rest, Delimited rest → Begins depth (text ++ rest) json rest

theorem Spells.string (depth level : Nat) (text : String) :
    Spells depth (pretty level (.string text)).toList (.string text) := by
  rw [pretty, toList_quote]
  refine ⟨⟨_, _, rfl, rfl, by decide⟩, ?_⟩
  intro rest _
  rw [List.cons_append, List.append_assoc]
  exact .string (string_quoted text rest)

theorem Spells.bool (depth level : Nat) (value : Bool) :
    Spells depth (pretty level (.bool value)).toList (.bool value) := by
  cases value with
  | true =>
    rw [pretty]
    exact ⟨⟨'t', _, rfl, rfl, by decide⟩, fun _ _ => .yes rfl⟩
  | false =>
    rw [pretty]
    exact ⟨⟨'f', _, rfl, rfl, by decide⟩, fun _ _ => .no rfl⟩

theorem Spells.natural (depth level : Nat) (number : UInt64) :
    Spells depth (pretty level (.natural number)).toList (.natural number) := by
  have written : (pretty level (.natural number)).toList = number.toNat.repr.toList := by
    rw [Json.natural, pretty, Number.text]
  have numeral := numeral_toDigits number.toNat
  cases spelled : number.toNat.repr.toList with
  | nil =>
    rw [Nat.toList_repr] at spelled
    exact absurd spelled numeral.present
  | cons first more =>
    have digit : first.isDigit := numeral.numeric first (by simp [← Nat.toList_repr, spelled])
    rw [written, spelled]
    refine ⟨⟨first, more, rfl, Decoder.visible_of_digit digit, Decoder.ne_of_digit digit rfl⟩, ?_⟩
    intro rest delimited
    have taken := number_toDigits number delimited
    rw [spelled, List.cons_append] at taken
    exact .digit digit taken

theorem delimited_newLine (level : Nat) : Delimited ((newLine level).toList ++ rest) := by
  rw [newLine, String.toList_append, List.append_assoc]
  exact .newline _

section Lists

theorem moreItems_kept (first : Bool) (before : List Char) :
    moreItems first (before.dropWhile isBlank) = moreItems first before := peek_bind_kept before

theorem moreItems_comma (before : List Char) :
    moreItems false (',' :: before.dropWhile isBlank) = moreItems false (',' :: before) := by
  unfold moreItems
  rw [bind_ok (peek_cons rfl), bind_ok (peek_cons rfl)]
  simp only [Bool.false_eq_true, if_false]
  rw [advance_bind, advance_bind]
  exact peek_bind_kept before

theorem moreItems_opened {text : List Char} {json : Json} (spells : Spells depth text json) (level : Nat) :
    moreItems true ((newLine level).toList ++ (text ++ rest)) = .ok (true, text ++ rest) := by
  obtain ⟨char, more, rfl, visible, within⟩ := spells.begins
  rw [← moreItems_kept, List.cons_append, dropWhile_blanks (blank_newLine level) visible]
  exact moreItems_first visible within

theorem moreItems_divided {text : List Char} {json : Json} (spells : Spells depth text json) (level : Nat) :
    moreItems false (',' :: ((newLine level).toList ++ (text ++ rest))) = .ok (true, text ++ rest) := by
  obtain ⟨char, more, rfl, visible, within⟩ := spells.begins
  rw [← moreItems_comma, List.cons_append, dropWhile_blanks (blank_newLine level) visible]
  exact moreItems_next visible within

theorem moreItems_closed (level : Nat) :
    moreItems false ((newLine level).toList ++ ']' :: rest) = .ok (false, ']' :: rest) := by
  rw [← moreItems_kept, dropWhile_blanks (blank_newLine level) rfl]
  rfl

theorem itemsLoop_spelled {text : List Char} {json : Json} {docs : List Json} {fuel : Nat} {first : Bool}
    {after : List Char} (ahead : moreItems first before = .ok (true, text ++ rest)) (spells : Spells depth text json)
    (delimited : Delimited rest) (later : itemsLoop (document depth) fuel false rest = .ok (docs, after)) :
    itemsLoop (document depth) (fuel + 1) first before = .ok (json :: docs, after) := by
  rw [itemsLoop, bind_ok ahead, if_pos rfl, bind_ok (document_of_begins (spells.takes rest delimited)), bind_ok later]
  rfl

theorem delimited_prettyItems (items : List Json) (level outer : Nat) :
    Delimited ((prettyItems level items).toList ++ ((newLine outer).toList ++ ']' :: rest)) := by
  cases items with
  | nil =>
    rw [prettyItems]
    exact delimited_newLine outer
  | cons item items =>
    rw [prettyItems]
    simp only [String.toList_append, List.append_assoc]
    exact .comma _

theorem itemsLoop_pretty {docs : List Json} (spells : ∀ doc ∈ docs, Spells depth (pretty level doc).toList doc)
    {fuel : Nat} (enough : docs.length < fuel) (outer : Nat) :
    itemsLoop (document depth) fuel false ((prettyItems level docs).toList ++ ((newLine outer).toList ++ ']' :: rest)) =
      .ok (docs, rest) := by
  induction docs generalizing fuel with
  | nil =>
    obtain ⟨fuel, rfl⟩ := Nat.exists_eq_add_one_of_ne_zero (by omega : fuel ≠ 0)
    have nothing : (prettyItems level []).toList = [] := by rw [prettyItems]; rfl
    rw [nothing, List.nil_append, itemsLoop, bind_ok (moreItems_closed outer)]
    rfl
  | cons doc docs ih =>
    obtain ⟨fuel, rfl⟩ := Nat.exists_eq_add_one_of_ne_zero (by omega : fuel ≠ 0)
    rw [List.length_cons] at enough
    obtain ⟨here, later⟩ := List.forall_mem_cons.1 spells
    refine itemsLoop_spelled ?_ here (delimited_prettyItems docs level outer) (ih later (by omega))
    rw [prettyItems]
    simp only [String.toList_append, List.append_assoc]
    exact moreItems_divided here level

private theorem length_le_prettyItems (items : List Json) (level : Nat) :
    items.length ≤ (prettyItems level items).toList.length := by
  induction items with
  | nil => simp
  | cons item items ih =>
    rw [prettyItems]
    simp only [String.toList_append, List.length_append, List.length_cons]
    have comma : ",".toList.length = 1 := rfl
    omega

theorem Spells.array {docs : List Json} (spells : ∀ doc ∈ docs, Spells depth (pretty (level + 1) doc).toList doc) :
    Spells (depth + 1) (pretty level (.array docs)).toList (.array docs) := by
  cases docs with
  | nil =>
    rw [pretty]
    exact ⟨⟨'[', _, rfl, rfl, by decide⟩, fun _ _ => .array rfl⟩
  | cons doc docs =>
    obtain ⟨here, later⟩ := List.forall_mem_cons.1 spells
    have shorter := length_le_prettyItems docs (level + 1)
    have written : (pretty level (.array (doc :: docs))).toList = '[' :: ((newLine (level + 1)).toList ++
        ((pretty (level + 1) doc).toList ++ ((prettyItems (level + 1) docs).toList ++
        ((newLine level).toList ++ [']'])))) := by
      rw [pretty]
      simp
    rw [written]
    refine ⟨⟨'[', _, rfl, rfl, by decide⟩, ?_⟩
    intro rest _
    obtain ⟨_, _, some, -, -⟩ := here.begins
    simp only [List.cons_append, List.append_assoc, List.nil_append]
    apply Begins.array
    unfold items
    rw [get_bind]
    refine itemsLoop_spelled (moreItems_opened here (level + 1)) here (delimited_prettyItems docs _ level)
      (itemsLoop_pretty later ?_ level)
    simp only [List.length_append, some, List.length_cons]
    omega

end Lists

section Objects

theorem moreMembers_kept (first : Bool) (before : List Char) :
    moreMembers first (before.dropWhile isBlank) = moreMembers first before := peek_bind_kept before

theorem moreMembers_comma (before : List Char) :
    moreMembers false (',' :: before.dropWhile isBlank) = moreMembers false (',' :: before) := by
  unfold moreMembers
  rw [bind_ok (peek_cons rfl), bind_ok (peek_cons rfl)]
  simp only [Bool.false_eq_true, if_false]
  rw [advance_bind, advance_bind]
  exact peek_bind_kept before

theorem moreMembers_opened (name : String) (level : Nat) :
    moreMembers true ((newLine level).toList ++ ((quote name).toList ++ rest)) = .ok (true, (quote name).toList ++ rest) := by
  rw [← moreMembers_kept, toList_quote, List.cons_append, dropWhile_blanks (blank_newLine level) rfl]
  exact moreMembers_first

theorem moreMembers_divided (name : String) (level : Nat) :
    moreMembers false (',' :: ((newLine level).toList ++ ((quote name).toList ++ rest))) =
      .ok (true, (quote name).toList ++ rest) := by
  rw [← moreMembers_comma, toList_quote, List.cons_append, dropWhile_blanks (blank_newLine level) rfl]
  exact moreMembers_next

/-- The text of a member is stored under its name. -/
theorem documentMember_spelled {text : List Char} {json : Json} (spells : Spells depth text json) (name : String)
    (stored : List (String × Json)) (delimited : Delimited rest) :
    documentMember depth name stored (':' :: ' ' :: (text ++ rest)) = .ok (stored ++ [(name, json)], rest) := by
  obtain ⟨char, more, rfl, visible, -⟩ := spells.begins
  have taken := document_of_begins (spells.takes rest delimited)
  have passed : (' ' :: (char :: more ++ rest)).dropWhile isBlank = char :: more ++ rest :=
    dropWhile_blanks (List.forall_mem_singleton.2 (rfl : isBlank ' ' = true)) visible
  rw [← passed, document_kept] at taken
  unfold documentMember
  rw [bind_ok colon_cons, bind_ok taken]
  rfl

theorem delimited_prettyMembers (members : List (String × Json)) (level outer : Nat) :
    Delimited ((prettyMembers level members).toList ++ ((newLine outer).toList ++ '\x7d' :: rest)) := by
  cases members with
  | nil =>
    rw [prettyMembers]
    exact delimited_newLine outer
  | cons member members =>
    rw [prettyMembers]
    simp only [String.toList_append, List.append_assoc]
    exact .comma _

theorem membersLoop_pretty {found : List (String × Json)}
    (spells : ∀ member ∈ found, Spells depth (pretty level member.2).toList member.2) {fuel : Nat}
    (enough : found.length < fuel) (stored : List (String × Json)) (outer : Nat) :
    membersLoop Reader.string (documentMember depth) fuel false stored
      ((prettyMembers level found).toList ++ ((newLine outer).toList ++ '\x7d' :: rest)) = .ok (stored ++ found, rest) := by
  induction found generalizing fuel stored with
  | nil =>
    obtain ⟨fuel, rfl⟩ := Nat.exists_eq_add_one_of_ne_zero (by omega : fuel ≠ 0)
    have nothing : (prettyMembers level []).toList = [] := by rw [prettyMembers]; rfl
    have closed : moreMembers false ((newLine outer).toList ++ '\x7d' :: rest) = .ok (false, '\x7d' :: rest) := by
      rw [← moreMembers_kept, dropWhile_blanks (blank_newLine outer) rfl]
      rfl
    rw [nothing, List.nil_append, membersLoop, bind_ok closed, List.append_nil]
    rfl
  | cons member found ih =>
    obtain ⟨fuel, rfl⟩ := Nat.exists_eq_add_one_of_ne_zero (by omega : fuel ≠ 0)
    rw [List.length_cons] at enough
    obtain ⟨name, json⟩ := member
    obtain ⟨here, later⟩ := List.forall_mem_cons.1 spells
    rw [prettyMembers]
    simp only [String.toList_append, List.append_assoc]
    rw [membersLoop_step _ (documentMember_spelled here name stored (delimited_prettyMembers found level outer)),
      ih later (by omega), List.append_assoc]
    · rfl
    · exact moreMembers_divided name level

private theorem length_le_prettyMembers (members : List (String × Json)) (level : Nat) :
    members.length ≤ (prettyMembers level members).toList.length := by
  induction members with
  | nil => simp
  | cons member members ih =>
    rw [prettyMembers]
    simp only [String.toList_append, List.length_append, List.length_cons]
    have comma : ",".toList.length = 1 := rfl
    omega

theorem Spells.object {found : List (String × Json)}
    (spells : ∀ member ∈ found, Spells depth (pretty (level + 1) member.2).toList member.2) :
    Spells (depth + 1) (pretty level (.object found)).toList (.object found) := by
  cases found with
  | nil =>
    rw [pretty]
    exact ⟨⟨'\x7b', _, rfl, rfl, by decide⟩, fun _ _ => .object rfl⟩
  | cons member found =>
    obtain ⟨name, json⟩ := member
    obtain ⟨here, later⟩ := List.forall_mem_cons.1 spells
    have shorter := length_le_prettyMembers found (level + 1)
    have written : (pretty level (.object ((name, json) :: found))).toList = '\x7b' :: ((newLine (level + 1)).toList ++
        ((quote name).toList ++ ':' :: ' ' :: ((pretty (level + 1) json).toList ++
        ((prettyMembers (level + 1) found).toList ++ ((newLine level).toList ++ ['\x7d']))))) := by
      rw [pretty]
      simp
    rw [written]
    refine ⟨⟨'\x7b', _, rfl, rfl, by decide⟩, ?_⟩
    intro rest _
    simp only [List.cons_append, List.append_assoc, List.nil_append]
    apply Begins.object
    unfold members
    rw [get_bind, membersLoop_step (moreMembers_opened name (level + 1))
      (documentMember_spelled here name [] (delimited_prettyMembers found (level + 1) level))]
    apply membersLoop_pretty later _ _ level
    simp only [List.length_append, List.length_cons]
    omega

end Objects

theorem Spells.strings (texts : List String) : Spells (depth + 1) (pretty level (.strings texts)).toList (.strings texts) := by
  apply Spells.array
  intro doc listed
  obtain ⟨text, -, rfl⟩ := List.mem_map.1 listed
  exact .string depth (level + 1) text

end Json

open Json

variable {depth level : Nat}

theorem Occurrence.spells (occurrence : Occurrence) :
    Spells (depth + 2) (pretty level occurrence.toJson).toList occurrence.toJson := by
  apply Spells.object
  intro member listed
  simp only [List.mem_cons, List.not_mem_nil, or_false] at listed
  rcases listed with rfl | rfl | rfl | rfl | rfl | rfl | rfl | rfl
  · exact .string _ _ _
  · exact .string _ _ _
  · exact .string _ _ _
  · exact .string _ _ _
  · exact .natural _ _ _
  · exact .natural _ _ _
  · exact .strings _
  · exact .strings _

theorem Edge.spells (edge : Edge) : Spells (depth + 1) (pretty level edge.toJson).toList edge.toJson := by
  apply Spells.object
  intro member listed
  simp only [List.mem_cons, List.not_mem_nil, or_false] at listed
  rcases listed with rfl | rfl | rfl | rfl
  · exact .string _ _ _
  · exact .string _ _ _
  · exact .string _ _ _
  · exact .bool _ _ _

theorem Diagram.spells (diagram : Diagram) :
    Spells (depth + 4) (pretty level diagram.toJson).toList diagram.toJson := by
  apply Spells.object
  intro member listed
  simp only [List.mem_cons, List.not_mem_nil, or_false] at listed
  rcases listed with rfl | rfl
  · apply Spells.array
    intro doc listed
    obtain ⟨occurrence, -, rfl⟩ := List.mem_map.1 listed
    exact occurrence.spells
  · apply Spells.array
    intro doc listed
    obtain ⟨edge, -, rfl⟩ := List.mem_map.1 listed
    exact edge.spells

end CallChart
