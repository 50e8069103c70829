import CallChart.Json.Decoder
import Mathlib.Data.List.Basic

/-! Decoders read what the printer writes. A decoder that stands before the text of a value takes exactly this text,
provided that what comes after it could not belong to the value. This is shown for strings with their escapes and for
numbers, and passes on to lists, tables and records. -/

namespace CallChart

namespace Json

namespace Reader

variable {α β : Type} {before after rest : List Char} {char : Char}

theorem bind_ok {first : Reader α} {next : α → Reader β} {value : α} (step : first before = .ok (value, after)) :
    (first >>= next) before = next value after := by
  change (first before >>= fun taken => next taken.1 taken.2) = _
  rw [step]
  rfl

theorem get_bind {next : List Char → Reader β} : (get >>= next) before = next before before := rfl

theorem set_bind {next : PUnit → Reader β} : (set after >>= next) before = next ⟨⟩ after := rfl

theorem advance_bind {next : Unit → Reader β} : (advance >>= next) (char :: rest) = next () rest := rfl

theorem peek_cons (visible : isBlank char = false) : peek (char :: rest) = .ok (some char, char :: rest) := by
  have kept : (char :: rest).dropWhile isBlank = char :: rest := by simp [visible]
  change Except.ok (((char :: rest).dropWhile isBlank).head?, (char :: rest).dropWhile isBlank) = _
  rw [kept]
  rfl

private theorem hexDigit?_digitChar : ∀ digit < 16, hexDigit? (Nat.digitChar digit) = some digit := by decide

private theorem hexFour_control {code : Nat} (small : code < 32) :
    hexFour ('0' :: '0' :: Nat.digitChar (code / 16) :: Nat.digitChar (code % 16) :: rest) = .ok (code, rest) := by
  have zero : hexDigit? '0' = some 0 := rfl
  have high := hexDigit?_digitChar (code / 16) (by omega)
  have low := hexDigit?_digitChar (code % 16) (by omega)
  have whole : ((0 * 16 + 0) * 16 + code / 16) * 16 + code % 16 = code := by omega
  have digits : ['0', '0', Nat.digitChar (code / 16), Nat.digitChar (code % 16)].mapM hexDigit? =
      some [0, 0, code / 16, code % 16] := by
    simp [zero, high, low]
  unfold hexFour
  rw [get_bind]
  simp only [List.take_succ_cons, List.take_zero, digits, List.drop_succ_cons, List.drop_zero, whole]
  rfl

private theorem unicode_control {char : Char} (small : char.toNat < 32) :
    unicode ('0' :: '0' :: Nat.digitChar (char.toNat / 16) :: Nat.digitChar (char.toNat % 16) :: rest) =
      .ok (char, rest) := by
  have first : ¬ 0xdc00 ≤ char.toNat := by omega
  have second : ¬ 0xd800 ≤ char.toNat := by omega
  unfold unicode
  rw [bind_ok (hexFour_control small)]
  simp only [first, second, decide_false, Bool.false_and, Bool.false_eq_true, if_false, Char.ofNat_toNat]
  rfl

theorem stringChar_unicode :
    stringChar ('\\' :: 'u' :: rest) = (unicode >>= fun found => pure (some found)) rest := rfl

theorem stringChar_plain (visible : ¬ char < ' ') (quote : char ≠ '"') (slash : char ≠ '\\')
    (here : before = char :: rest) : stringChar before = .ok (some char, rest) := by
  unfold stringChar
  rw [get_bind]
  split
  · cases here
  · exact absurd (List.cons.inj here).1.symm quote
  · exact absurd (List.cons.inj here).1.symm slash
  · exact absurd (List.cons.inj here).1.symm slash
  · exact absurd (List.cons.inj here).1.symm slash
  · cases here
    rw [if_neg visible, set_bind]
    rfl

/-- One character of a string is taken whatever comes after it. -/
theorem stringChar_escapeChar (char : Char) (rest : List Char) :
    stringChar (escapeChar char ++ rest) = .ok (some char, rest) := by
  by_cases short : char ∈ ['"', '\\', '\x08', '\x0c', '\n', '\r', '\t']
  · simp only [List.mem_cons, List.not_mem_nil, or_false] at short
    rcases short with rfl | rfl | rfl | rfl | rfl | rfl | rfl <;> rfl
  · simp only [List.mem_cons, List.not_mem_nil, or_false, not_or] at short
    by_cases control : char < ' '
    · have written : escapeChar char = controlEscape char := by simp [escapeChar, short, control]
      rw [written, controlEscape, List.cons_append, List.cons_append, stringChar_unicode]
      exact bind_ok (unicode_control control)
    · have written : escapeChar char = [char] := by simp [escapeChar, short, control]
      rw [written]
      exact stringChar_plain control short.1 short.2.1 rfl

theorem stringChars_escaped (chars rest : List Char) {fuel : Nat} (enough : chars.length < fuel) :
    stringChars fuel (chars.flatMap escapeChar ++ '"' :: rest) = .ok (chars, rest) := by
  induction chars generalizing fuel with
  | nil =>
    obtain ⟨fuel, rfl⟩ := Nat.exists_eq_add_one_of_ne_zero (by omega : fuel ≠ 0)
    rfl
  | cons char chars ih =>
    obtain ⟨fuel, rfl⟩ := Nat.exists_eq_add_one_of_ne_zero (by omega : fuel ≠ 0)
    rw [List.length_cons] at enough
    rw [List.flatMap_cons, List.append_assoc, stringChars, bind_ok (stringChar_escapeChar _ _)]
    change (stringChars fuel >>= fun chars => pure (char :: chars)) _ = _
    rw [bind_ok (ih (by omega))]
    rfl

private theorem length_le_escaped (chars : List Char) : chars.length ≤ (chars.flatMap escapeChar).length := by
  induction chars with
  | nil => simp
  | cons char chars ih =>
    have some : 0 < (escapeChar char).length := by
      unfold escapeChar
      repeat' split
      all_goals simp [controlEscape]
    rw [List.flatMap_cons, List.length_append, List.length_cons]
    omega

/-- A quoted text is taken after its opening quote. -/
theorem string_quoted (text : String) (rest : List Char) :
    string (text.toList.flatMap escapeChar ++ '"' :: rest) = .ok (text, rest) := by
  have shorter := length_le_escaped text.toList
  unfold string
  rw [get_bind, bind_ok (stringChars_escaped text.toList rest _), String.ofList_toList]
  · rfl
  · rw [List.length_append]
    omega

/-- What may come after a value: nothing, a blank, or what divides or closes a list or an object. -/
inductive Delimited : List Char → Prop where
  | finish : Delimited []
  | comma (rest : List Char) : Delimited (',' :: rest)
  | bracket (rest : List Char) : Delimited (']' :: rest)
  | brace (rest : List Char) : Delimited ('}' :: rest)
  | space (rest : List Char) : Delimited (' ' :: rest)
  | newline (rest : List Char) : Delimited ('\n' :: rest)
  | tab (rest : List Char) : Delimited ('\t' :: rest)
  | carriage (rest : List Char) : Delimited ('\r' :: rest)

def Stops (rest : List Char) : Prop := ∀ char ∈ rest.head?, char.isDigit = false

theorem Delimited.stops (delimited : Delimited rest) : Stops rest := by
  intro char first
  cases delimited <;> cases first <;> rfl

theorem digits_append {text : List Char} (numeric : ∀ char ∈ text, char.isDigit) (stops : Stops rest) :
    digits (text ++ rest) = .ok (text, rest) := by
  have taken : rest.takeWhile Char.isDigit = [] ∧ rest.dropWhile Char.isDigit = rest := by
    cases rest with
    | nil => exact ⟨rfl, rfl⟩
    | cons char rest => simp [stops char rfl]
  unfold digits
  rw [get_bind, set_bind, List.takeWhile_append_of_pos numeric, List.dropWhile_append_of_pos numeric, taken.1, taken.2,
    List.append_nil]
  rfl

private theorem head_toDigits {number : Nat} (positive : 0 < number) : (Nat.toDigits 10 number).head? ≠ some '0' := by
  induction number using Nat.strongRecOn with
  | _ number ih =>
    rw [Nat.toDigits_eq_if (by omega)]
    split
    · simp only [List.head?_cons, ne_eq, Option.some.injEq, Nat.digitChar_eq_zero]
      omega
    · rw [List.head?_append_of_ne_nil _ Nat.toDigits_ne_nil]
      exact ih (number / 10) (by omega) (by omega)

theorem someDigits_append {text : List Char} (numeric : ∀ char ∈ text, char.isDigit) (present : text ≠ [])
    (stops : Stops rest) : someDigits (text ++ rest) = .ok (text, rest) := by
  cases text with
  | nil => exact absurd rfl present
  | cons char more =>
    unfold someDigits
    rw [List.cons_append, get_bind]
    simp only [numeric char List.mem_cons_self, if_true]
    exact digits_append numeric stops

theorem digits_zero (stops : Stops rest) : digits ('0' :: rest) = .ok (['0'], rest) :=
  digits_append (List.forall_mem_singleton.2 rfl) stops

/-- Digits without a zero in front that others follow. -/
structure Numeral (text : List Char) : Prop where
  numeric : ∀ char ∈ text, char.isDigit
  present : text ≠ []
  leading : text.head? = some '0' → text = ['0']

theorem Numeral.wholeDigits {text : List Char} (numeral : Numeral text) (stops : Stops rest) :
    Reader.wholeDigits (text ++ rest) = .ok (text, rest) := by
  have more := someDigits_append numeral.numeric numeral.present stops
  by_cases zero : text.head? = some '0'
  · rw [numeral.leading zero]
    cases rest with
    | nil => rfl
    | cons char rest =>
      have closed : char.isDigit = false := stops char rfl
      change (if char.isDigit then _ else Reader.digits) _ = _
      rw [closed]
      exact digits_zero stops
  · generalize whole : text ++ rest = before at more ⊢
    unfold Reader.wholeDigits
    rw [get_bind]
    split
    · have first := congrArg List.head? whole
      rw [List.head?_append_of_ne_nil _ numeral.present] at first
      exact absurd first zero
    · exact more

theorem numeral_toDigits (number : Nat) : Numeral (Nat.toDigits 10 number) where
  numeric char member := Nat.isDigit_of_mem_toDigits (by omega) (by omega) member
  present := Nat.toDigits_ne_nil
  leading zero := by
    by_cases positive : 0 < number
    · exact absurd zero (head_toDigits positive)
    · obtain rfl : number = 0 := by omega
      exact Nat.toDigits_zero 10

private theorem le_ofDigitChars (digits : List Char) (start : Nat) : start ≤ Nat.ofDigitChars 10 digits start := by
  rw [Nat.ofDigitChars_eq_ofDigitChars_zero]
  have grows : 1 * start ≤ 10 ^ digits.length * start := Nat.mul_le_mul_right _ (Nat.one_le_pow _ _ (by omega))
  omega

/-- Digits that spell a number of 64 bits are used up. -/
private theorem accumulate_ofDigitChars {digits : List Char} {start : Nat}
    (fits : Nat.ofDigitChars 10 digits start ≤ maxNatural) :
    accumulate start digits = (Nat.ofDigitChars 10 digits start, []) := by
  induction digits generalizing start with
  | nil => rfl
  | cons digit rest ih =>
    rw [Nat.ofDigitChars_cons, Nat.mul_comm] at fits ⊢
    have longer := Nat.le_trans (le_ofDigitChars rest _) fits
    rw [accumulate, if_pos longer, ih fits]

theorem number_toDigits (number : UInt64) (delimited : Delimited rest) :
    Reader.number true (number.toNat.repr.toList ++ rest) = .ok (.natural number, rest) := by
  have fits : Nat.ofDigitChars 10 (Nat.toDigits 10 number.toNat) 0 ≤ maxNatural := by
    rw [Nat.ofDigitChars_ten_toDigits]
    have := number.toNat_lt
    unfold maxNatural
    omega
  unfold Reader.number
  rw [Nat.toList_repr, bind_ok ((numeral_toDigits number.toNat).wholeDigits delimited.stops), accumulate_ofDigitChars fits,
    Nat.ofDigitChars_ten_toDigits]
  simp only [get_bind]
  cases delimited <;> simp [whole] <;> rfl

end Reader

open Reader (isBlank Delimited)

theorem toList_quote (text : String) : (quote text).toList = '"' :: (text.toList.flatMap escapeChar ++ ['"']) := by
  simp [quote]

/-- A reader takes the text of a value off the front, and the text begins with what cannot close a list. -/
structure Reads {α : Type} (reader : Reader α) (json : Json) (value : α) : Prop where
  begins : ∃ char more, json.compact.toList = char :: more ∧ isBlank char = false ∧ char ≠ ']'
  takes : ∀ rest, Delimited rest → reader (json.compact.toList ++ rest) = .ok (value, rest)

namespace Reader

variable {α σ : Type} {char : Char} {rest : List Char}

theorem moreItems_first (visible : isBlank char = false) (within : char ≠ ']') :
    moreItems true (char :: rest) = .ok (true, char :: rest) := by
  unfold moreItems
  rw [bind_ok (peek_cons visible)]
  generalize found : some char = next
  split
  · cases found
  · exact absurd (Option.some.inj found) within
  · rfl
  · rfl

theorem moreItems_next (visible : isBlank char = false) (within : char ≠ ']') :
    moreItems false (',' :: char :: rest) = .ok (true, char :: rest) := by
  unfold moreItems
  rw [bind_ok (peek_cons (rfl : isBlank ',' = false))]
  simp only [Bool.false_eq_true, if_false]
  rw [advance_bind, bind_ok (peek_cons visible)]
  generalize found : some char = next
  split
  · cases found
  · exact absurd (Option.some.inj found) within
  · rfl

theorem itemsLoop_step {item : Reader α} {fuel : Nat} {flag : Bool} {before after : List Char} {json : Json} {value : α}
    {values : List α} (more : moreItems flag before = .ok (true, json.compact.toList ++ rest))
    (reads : Reads item json value) (delimited : Delimited rest)
    (others : itemsLoop item fuel false rest = .ok (values, after)) :
    itemsLoop item (fuel + 1) flag before = .ok (value :: values, after) := by
  rw [itemsLoop, bind_ok more, if_pos rfl, bind_ok (reads.takes rest delimited), bind_ok others]
  rfl

theorem delimited_compactItems (items : List Json) : Delimited ((compactItems items).toList ++ ']' :: rest) := by
  cases items with
  | nil =>
    rw [compactItems]
    exact .bracket rest
  | cons item items =>
    rw [compactItems]
    simp only [String.toList_append, List.append_assoc]
    exact .comma _

theorem itemsLoop_compactItems {item : Reader α} {encode : α → Json} {values : List α}
    (reads : ∀ value ∈ values, Reads item (encode value) value) {fuel : Nat} (enough : values.length < fuel) :
    itemsLoop item fuel false ((compactItems (values.map encode)).toList ++ ']' :: rest) = .ok (values, rest) := by
  induction values generalizing fuel with
  | nil =>
    obtain ⟨fuel, rfl⟩ := Nat.exists_eq_add_one_of_ne_zero (by omega : fuel ≠ 0)
    rw [List.map_nil, compactItems]
    rfl
  | cons value values ih =>
    obtain ⟨fuel, rfl⟩ := Nat.exists_eq_add_one_of_ne_zero (by omega : fuel ≠ 0)
    rw [List.length_cons] at enough
    obtain ⟨first, others⟩ := List.forall_mem_cons.1 reads
    obtain ⟨char, more, written, visible, within⟩ := first.begins
    refine itemsLoop_step ?_ first (delimited_compactItems _) (ih others (by omega))
    rw [List.map_cons, compactItems]
    simp only [String.toList_append, List.append_assoc, written]
    exact moreItems_next visible within

theorem moreMembers_first : moreMembers true ('"' :: rest) = .ok (true, '"' :: rest) := rfl

theorem moreMembers_next : moreMembers false (',' :: '"' :: rest) = .ok (true, '"' :: rest) := rfl

theorem colon_cons : colon (':' :: rest) = .ok ((), rest) := rfl

inductive Changes (member : String → σ → Reader σ) : List (String × Json) → σ → σ → Prop where
  | nil (state : σ) : Changes member [] state state
  | cons {name : String} {json : Json} {others : List (String × Json)} {state next last : σ}
      (step : ∀ rest, Delimited rest → member name state (':' :: (json.compact.toList ++ rest)) = .ok (next, rest))
      (later : Changes member others next last) : Changes member ((name, json) :: others) state last

theorem membersLoop_step {member : String → σ → Reader σ} {fuel : Nat} {flag : Bool} {before after : List Char}
    {name : String} {state next : σ} (more : moreMembers flag before = .ok (true, (quote name).toList ++ after))
    (step : member name state after = .ok (next, rest)) :
    membersLoop string member (fuel + 1) flag state before = membersLoop string member fuel false next rest := by
  rw [membersLoop, bind_ok more, if_pos rfl, toList_quote, List.cons_append, advance_bind, List.append_assoc,
    List.singleton_append, bind_ok (string_quoted name after), bind_ok step]

theorem delimited_compactMembers (members : List (String × Json)) :
    Delimited ((compactMembers members).toList ++ '}' :: rest) := by
  cases members with
  | nil =>
    rw [compactMembers]
    exact .brace rest
  | cons member members =>
    rw [compactMembers]
    simp only [String.toList_append, List.append_assoc]
    exact .comma _

theorem membersLoop_compactMembers {member : String → σ → Reader σ} {members : List (String × Json)} {state last : σ}
    (changes : Changes member members state last) {fuel : Nat} (enough : members.length < fuel) :
    membersLoop string member fuel false state ((compactMembers members).toList ++ '}' :: rest) = .ok (last, rest) := by
  induction changes generalizing fuel with
  | nil state =>
    obtain ⟨fuel, rfl⟩ := Nat.exists_eq_add_one_of_ne_zero (by omega : fuel ≠ 0)
    rw [compactMembers]
    rfl
  | @cons name json others state next last step _ ih =>
    obtain ⟨fuel, rfl⟩ := Nat.exists_eq_add_one_of_ne_zero (by omega : fuel ≠ 0)
    rw [List.length_cons] at enough
    rw [compactMembers]
    simp only [String.toList_append, List.append_assoc]
    rw [membersLoop_step _ (step _ (delimited_compactMembers others))]
    · exact ih (by omega)
    · rw [toList_quote]
      exact moreMembers_next

private theorem length_le_compactItems (items : List Json) : items.length ≤ (compactItems items).toList.length := by
  induction items with
  | nil => simp
  | cons item items ih =>
    rw [compactItems]
    simp only [String.toList_append, List.length_append, List.length_cons]
    have comma : ",".toList.length = 1 := rfl
    omega

private theorem length_le_compactMembers (members : List (String × Json)) :
    members.length ≤ (compactMembers members).toList.length := by
  induction members with
  | nil => simp
  | cons member members ih =>
    rw [compactMembers]
    simp only [String.toList_append, List.length_append, List.length_cons]
    have comma : ",".toList.length = 1 := rfl
    omega

/-- A list is taken after its opening bracket. -/
theorem items_compact {item : Reader α} {encode : α → Json} {values : List α}
    (reads : ∀ value ∈ values, Reads item (encode value) value) :
    ∃ text, (Json.array (values.map encode)).compact.toList = '[' :: text ∧
      ∀ rest, items item (text ++ rest) = .ok (values, rest) := by
  cases values with
  | nil =>
    refine ⟨[']'], ?_, fun _ => rfl⟩
    rw [List.map_nil, compact]
    rfl
  | cons value values =>
    obtain ⟨first, others⟩ := List.forall_mem_cons.1 reads
    obtain ⟨char, more, written, visible, within⟩ := first.begins
    refine ⟨(encode value).compact.toList ++ (compactItems (values.map encode)).toList ++ [']'], ?_, ?_⟩
    · rw [List.map_cons, compact]
      simp
    · intro rest
      have shorter := length_le_compactItems (values.map encode)
      rw [List.length_map] at shorter
      unfold items
      rw [get_bind, List.append_assoc, List.append_assoc, List.singleton_append]
      refine itemsLoop_step ?_ first (delimited_compactItems _) (itemsLoop_compactItems others ?_)
      · rw [written]
        exact moreItems_first visible within
      · simp only [List.length_append, List.length_cons, written]
        omega

/-- An object is taken after its opening brace. -/
theorem members_compact {member : String → σ → Reader σ} {entries : List (String × Json)} {state last : σ}
    (changes : Changes member entries state last) :
    ∃ text, (Json.object entries).compact.toList = '\x7b' :: text ∧
      ∀ rest, members string member state (text ++ rest) = .ok (last, rest) := by
  cases changes with
  | nil =>
    refine ⟨['\x7d'], ?_, fun _ => rfl⟩
    rw [compact]
    rfl
  | @cons name json others _ next _ step later =>
    refine ⟨(quote name).toList ++ ':' :: json.compact.toList ++ (compactMembers others).toList ++ ['\x7d'], ?_, ?_⟩
    · rw [compact]
      simp
    · intro rest
      have shorter := length_le_compactMembers others
      unfold members
      rw [get_bind]
      simp only [List.append_assoc, List.cons_append, List.nil_append]
      rw [membersLoop_step _ (step _ (delimited_compactMembers others)), membersLoop_compactMembers later]
      · simp only [List.length_append, List.length_cons]
        omega
      · rw [toList_quote]
        exact moreMembers_first

end Reader

namespace Decoder

variable {α β : Type}

theorem read_string (rest : List Char) : string.read ('"' :: rest) = Reader.string rest := rfl

theorem string_reads (text : String) : Reads string.read (.string text) text := by
  have written : (Json.string text).compact.toList = '"' :: (text.toList.flatMap escapeChar ++ ['"']) := by
    rw [compact, toList_quote]
  refine ⟨⟨_, _, written, rfl, by decide⟩, ?_⟩
  intro rest _
  rw [written, List.cons_append, List.append_assoc, read_string]
  exact Reader.string_quoted text rest

theorem ne_of_digit {char other : Char} (digit : char.isDigit) (letter : other.isDigit = false) :
    char ≠ other := by
  intro same
  rw [same, letter] at digit
  cases digit

theorem visible_of_digit {char : Char} (digit : char.isDigit) : isBlank char = false := by
  simp [isBlank, ne_of_digit digit]

theorem read_natural {char : Char} {rest : List Char} (digit : char.isDigit) :
    natural.read (char :: rest) = readNatural true (char :: rest) := by
  change (Reader.peek >>= _) _ = _
  rw [Reader.bind_ok (Reader.peek_cons (visible_of_digit digit))]
  generalize found : some char = next
  split
  · exact absurd (Option.some.inj found) (ne_of_digit digit rfl)
  · cases found
    rw [if_pos digit]
  · cases found

theorem natural_reads (number : UInt64) : Reads natural.read (.natural number) number := by
  have written : (Json.natural number).compact.toList = number.toNat.repr.toList := by
    rw [Json.natural, compact, Number.text]
  have numeric : ∀ char ∈ number.toNat.repr.toList, char.isDigit := by
    intro char member
    rw [Nat.toList_repr] at member
    exact Nat.isDigit_of_mem_toDigits (by omega) (by omega) member
  cases spelled : number.toNat.repr.toList with
  | nil =>
    rw [Nat.toList_repr] at spelled
    exact absurd spelled Nat.toDigits_ne_nil
  | cons first more =>
    have digit : first.isDigit := numeric first (by simp [spelled])
    refine ⟨⟨first, more, written.trans spelled, visible_of_digit digit, ne_of_digit digit rfl⟩, ?_⟩
    intro rest delimited
    have taken := Reader.number_toDigits number delimited
    rw [spelled, List.cons_append] at taken
    rw [written, spelled, List.cons_append, read_natural digit, readNatural, Reader.bind_ok taken]
    rfl

theorem map_reads {decoder : Decoder α} {json : Json} {value : α} (reads : Reads decoder.read json value)
    (change : α → β) : Reads (decoder.map change).read json (change value) := by
  refine ⟨reads.begins, ?_⟩
  intro rest delimited
  change (change <$> decoder.read) _ = _
  rw [map_eq_pure_bind, Reader.bind_ok (reads.takes rest delimited)]
  rfl

theorem read_oneOf {options : List (String × α)} (rest : List Char) :
    (oneOf options).read ('"' :: rest) = (Reader.string >>= readPick options) rest := rfl

theorem oneOf_reads {options : List (String × α)} {name : String} {value : α} (known : pick options name = .ok value) :
    Reads (oneOf options).read (.string name) value := by
  refine ⟨(string_reads name).begins, ?_⟩
  intro rest _
  rw [compact, toList_quote, List.cons_append, List.append_assoc, read_oneOf, List.singleton_append,
    Reader.bind_ok (Reader.string_quoted name rest), readPick, known]
  rfl

theorem read_list (item : Decoder α) (rest : List Char) :
    (list item).read ('[' :: rest) = Reader.items item.read rest := rfl

theorem list_reads {item : Decoder α} {encode : α → Json} {values : List α}
    (reads : ∀ value ∈ values, Reads item.read (encode value) value) :
    Reads (list item).read (.array (values.map encode)) values := by
  obtain ⟨text, written, taken⟩ := Reader.items_compact reads
  refine ⟨⟨_, _, written, rfl, by decide⟩, ?_⟩
  intro rest _
  rw [written, List.cons_append, read_list]
  exact taken rest

def tableMember (item : Decoder α) (name : String) (table : OrderedMap String α) : Reader (OrderedMap String α) := do
  Reader.colon
  return table.insert name (← item.read)

theorem read_table (item : Decoder α) (rest : List Char) :
    (table item).read ('\x7b' :: rest) = Reader.members Reader.string item.tableMember OrderedMap.empty rest := rfl

theorem tableMember_takes {item : Decoder α} {json : Json} {value : α} (reads : Reads item.read json value)
    (name : String) (table : OrderedMap String α) {rest : List Char} (delimited : Delimited rest) :
    item.tableMember name table (':' :: (json.compact.toList ++ rest)) = .ok (table.insert name value, rest) := by
  unfold tableMember
  rw [Reader.bind_ok Reader.colon_cons, Reader.bind_ok (reads.takes rest delimited)]
  rfl

theorem table_changes {item : Decoder α} {encode : α → Json} {entries : List (String × α)}
    (reads : ∀ entry ∈ entries, Reads item.read (encode entry.2) entry.2) (table : OrderedMap String α) :
    Reader.Changes item.tableMember (entries.map fun entry => (entry.1, encode entry.2)) table
      (entries.foldl (fun table entry => table.insert entry.1 entry.2) table) := by
  induction entries generalizing table with
  | nil => exact .nil table
  | cons entry others ih =>
    obtain ⟨first, later⟩ := List.forall_mem_cons.1 reads
    exact .cons (fun rest delimited => tableMember_takes first entry.1 table delimited) (ih later _)

theorem table_reads {item : Decoder α} {encode : α → Json} {map : OrderedMap String α}
    (reads : ∀ entry ∈ map.entries, Reads item.read (encode entry.2) entry.2) :
    Reads (table item).read (.object (map.entries.map fun entry => (entry.1, encode entry.2))) map := by
  obtain ⟨text, written, taken⟩ := Reader.members_compact (table_changes reads .empty)
  refine ⟨⟨_, _, written, rfl, by decide⟩, ?_⟩
  intro rest _
  rw [written, List.cons_append, read_table, taken rest]
  have same : map.entries.foldl (fun table entry => table.insert entry.1 entry.2) .empty = map := map.ofList_entries
  rw [same]

namespace Record

variable {δ : Type} {record : Record δ α}

/-- A field of the record that was not there before changes the draft. -/
theorem readMember_takes {name : String} {field : Field δ} {json : Json} {change : δ → δ} {draft : δ} {rest : List Char}
    (known : record.field? name = some field) (free : field.filled draft = false)
    (reads : Reads field.decoder.read json change) (delimited : Delimited rest) :
    record.readMember name draft (':' :: (json.compact.toList ++ rest)) = .ok (change draft, rest) := by
  unfold readMember
  simp only [known, free, Bool.false_eq_true, if_false]
  rw [Reader.bind_ok Reader.colon_cons, Reader.bind_ok (reads.takes rest delimited)]
  rfl

theorem changes_cons {name : String} {field : Field δ} {json : Json} {change : δ → δ} {draft last : δ}
    {others : List (String × Json)} (known : record.field? name = some field) (free : field.filled draft = false)
    (reads : Reads field.decoder.read json change) (later : Reader.Changes record.readMember others (change draft) last) :
    Reader.Changes record.readMember ((name, json) :: others) draft last :=
  .cons (fun _ delimited => readMember_takes known free reads delimited) later

theorem read_object (rest : List Char) : record.read ('\x7b' :: rest) =
    (Reader.members Reader.string record.readMember record.draft >>= record.readFinish) rest := rfl

theorem record_reads {entries : List (String × Json)} {last : δ} {value : α}
    (changes : Reader.Changes record.readMember entries record.draft last) (complete : record.finish last = .ok value) :
    Reads (Decoder.record record).read (.object entries) value := by
  obtain ⟨text, written, taken⟩ := Reader.members_compact changes
  refine ⟨⟨_, _, written, rfl, by decide⟩, ?_⟩
  intro rest _
  change record.read _ = _
  rw [written, List.cons_append, read_object, Reader.bind_ok (taken rest), readFinish, complete]
  rfl

end Record

end Decoder

end Json

end CallChart
