import CallChart.Proofs.Reading

/-! A value inside a longer text. A reader of values takes characters off the front and looks no further than the
character after the value, so that what it finds does not change when the text is followed by a comma, a closing
bracket or a blank. -/

namespace CallChart

namespace Json

namespace Reader

variable {α β σ : Type} {before middle after rest : List Char} {value : α} {char : Char}

theorem bind_eq_ok {first : Reader α} {next : α → Reader β} {result : β} :
    (first >>= next) before = .ok (result, after) ↔
      ∃ value middle, first before = .ok (value, middle) ∧ next value middle = .ok (result, after) := by
  change (first before >>= fun taken => next taken.1 taken.2) = _ ↔ _
  cases first before with
  | error fault => simp [bind, Except.bind]
  | ok taken =>
    constructor
    · intro read
      exact ⟨taken.1, taken.2, rfl, read⟩
    · intro steps
      obtain ⟨value, middle, same, read⟩ := steps
      cases same
      exact read

theorem peek_bind {next : Option Char → Reader β} :
    (peek >>= next) before = next (before.dropWhile isBlank).head? (before.dropWhile isBlank) := rfl

/-- What a reader leaves is the end of what it was given, and more text after that changes nothing else. -/
def LocalAt (reader : Reader α) (before : List Char) : Prop :=
  ∀ value after, reader before = .ok (value, after) →
    after <:+ before ∧ ∀ rest, Delimited rest → reader (before ++ rest) = .ok (value, after ++ rest)

def Local (reader : Reader α) : Prop := ∀ before, LocalAt reader before

theorem LocalAt.throw (fault : Fault) : LocalAt (throw fault : Reader α) before := by
  intro value after read
  cases read

theorem LocalAt.bind {first : Reader α} {next : α → Reader β} (one : LocalAt first before)
    (two : ∀ value, Local (next value)) : LocalAt (first >>= next) before := by
  intro result after read
  obtain ⟨value, middle, taken, last⟩ := bind_eq_ok.1 read
  obtain ⟨part, spliced⟩ := one value middle taken
  obtain ⟨shorter, finish⟩ := two value middle result after last
  refine ⟨shorter.trans part, ?_⟩
  intro rest delimited
  rw [bind_ok (spliced rest delimited)]
  exact finish rest delimited

theorem Local.bind {first : Reader α} {next : α → Reader β} (one : Local first) (two : ∀ value, Local (next value)) :
    Local (first >>= next) := fun before => (one before).bind two

theorem LocalAt.advance_bind {next : Unit → Reader β} (two : LocalAt (next ()) before) :
    LocalAt (advance >>= next) (char :: before) := by
  intro result after read
  obtain ⟨shorter, finish⟩ := two result after read
  exact ⟨shorter.trans (List.suffix_cons char before), finish⟩

section Numbers

theorem Stops.append (stops : Stops before) (delimited : Delimited rest) : Stops (before ++ rest) := by
  cases before with
  | nil => exact delimited.stops
  | cons char more => exact stops

theorem LocalAt.cons {reader next : Reader α} (step : ∀ more, reader (char :: more) = next more) (later : Local next) :
    LocalAt reader (char :: before) := by
  intro value after read
  rw [step] at read
  obtain ⟨shorter, spliced⟩ := later before value after read
  refine ⟨shorter.trans (List.suffix_cons char before), ?_⟩
  intro rest delimited
  rw [List.cons_append, step]
  exact spliced rest delimited

end Numbers

section Strings

/-- The ways in which a character of a string may be written, and its end. -/
inductive Written : List Char → Option Char → List Char → Prop where
  | finish (rest : List Char) : Written ('"' :: rest) none rest
  | code {text rest : List Char} {char : Char} (read : unicode text = .ok (char, rest)) :
      Written ('\\' :: 'u' :: text) (some char) rest
  | letter {letter char : Char} (rest : List Char) (other : letter ≠ 'u') (known : escapeLetter? letter = some char) :
      Written ('\\' :: letter :: rest) (some char) rest
  | plain {char : Char} (rest : List Char) (visible : ¬ char < ' ') (quote : char ≠ '"') (slash : char ≠ '\\') :
      Written (char :: rest) (some char) rest

end Strings

section Loops

end Loops

variable {store : String → Json → List (String × Json) → List (String × Json)}

end Reader

end Json

end CallChart
