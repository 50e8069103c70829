import CallChart.Proofs.Splicing
import Mathlib.Data.List.DropRight

/-! Readers that follow the text of a value. A value is read with the members of its objects in the order of the text,
since that is the order in which they stream by; how its text begins tells what it is. A reader follows such a value if it
ends where the value ends. -/

namespace CallChart

namespace Json

namespace Reader

variable {α β ε σ : Type} {before middle after : List Char} {doc : Json} {depth : Nat}

/-- Reads a value with the members of its objects as the text has them. -/
def document (depth : Nat) : Reader Json := valueStoring (fun name json members => members ++ [(name, json)]) depth

def documentMember (depth : Nat) (name : String) (members : List (String × Json)) : Reader (List (String × Json)) := do
  colon
  return members ++ [(name, ← document depth)]

/-- How the text of a value goes on after its blanks. -/
inductive Begins : Nat → List Char → Json → List Char → Prop where
  | null {depth : Nat} {text rest : List Char} (read : word "ull".toList text = .ok ((), rest)) :
      Begins depth ('n' :: text) .null rest
  | yes {depth : Nat} {text rest : List Char} (read : word "rue".toList text = .ok ((), rest)) :
      Begins depth ('t' :: text) (.bool true) rest
  | no {depth : Nat} {text rest : List Char} (read : word "alse".toList text = .ok ((), rest)) :
      Begins depth ('f' :: text) (.bool false) rest
  | minus {depth : Nat} {text rest : List Char} {value : Number} (read : number false text = .ok (value, rest)) :
      Begins depth ('-' :: text) (.number value) rest
  | digit {depth : Nat} {char : Char} {text rest : List Char} {value : Number} (numeric : char.isDigit)
      (read : number true (char :: text) = .ok (value, rest)) : Begins depth (char :: text) (.number value) rest
  | string {depth : Nat} {text rest : List Char} {value : String} (read : Reader.string text = .ok (value, rest)) :
      Begins depth ('"' :: text) (.string value) rest
  | array {depth : Nat} {text rest : List Char} {docs : List Json}
      (read : items (document depth) text = .ok (docs, rest)) : Begins (depth + 1) ('[' :: text) (.array docs) rest
  | object {depth : Nat} {text rest : List Char} {found : List (String × Json)}
      (read : members Reader.string (documentMember depth) [] text = .ok (found, rest)) :
      Begins (depth + 1) ('\x7b' :: text) (.object found) rest

theorem peek_bind_kept {next : Option Char → Reader α} (before : List Char) :
    (peek >>= next) (before.dropWhile isBlank) = (peek >>= next) before := by
  rw [peek_bind, peek_bind, List.dropWhile_idempotent]

theorem document_kept (depth : Nat) (before : List Char) :
    document depth (before.dropWhile isBlank) = document depth before := by
  cases depth <;> exact peek_bind_kept before

theorem document_digit {char : Char} (numeric : char.isDigit) :
    document depth (char :: before) = (number true >>= fun value => pure (.number value)) (char :: before) := by
  have opened : ∀ inner, valueWith (fun name json members => members ++ [(name, json)]) inner (char :: before) =
      (number true >>= fun value => pure (.number value)) (char :: before) := by
    intro inner
    unfold valueWith
    rw [bind_ok (peek_cons (Decoder.visible_of_digit numeric))]
    generalize found : some char = next
    split
    · cases found
    iterate 7
      · cases found
        cases numeric
    · cases found
      rw [if_pos numeric]
  cases depth with
  | zero => exact opened none
  | succ less => exact opened (some (document less))

theorem document_of_begins (begins : Begins depth before doc after) : document depth before = .ok (doc, after) := by
  cases begins with
  | @null _ text _ taken =>
    have step : document depth ('n' :: text) = (word "ull".toList >>= fun _ => pure .null) text := by cases depth <;> rfl
    rw [step, bind_ok taken]
    rfl
  | @yes _ text _ taken =>
    have step : document depth ('t' :: text) = (word "rue".toList >>= fun _ => pure (.bool true)) text := by
      cases depth <;> rfl
    rw [step, bind_ok taken]
    rfl
  | @no _ text _ taken =>
    have step : document depth ('f' :: text) = (word "alse".toList >>= fun _ => pure (.bool false)) text := by
      cases depth <;> rfl
    rw [step, bind_ok taken]
    rfl
  | @minus _ text _ _ taken =>
    have step : document depth ('-' :: text) = (number false >>= fun value => pure (.number value)) text := by
      cases depth <;> rfl
    rw [step, bind_ok taken]
    rfl
  | digit numeric taken =>
    rw [document_digit numeric, bind_ok taken]
    rfl
  | @string _ text _ _ taken =>
    have step : document depth ('"' :: text) = (Reader.string >>= fun value => pure (.string value)) text := by
      cases depth <;> rfl
    rw [step, bind_ok taken]
    rfl
  | @array less text _ _ taken =>
    have step : document (less + 1) ('[' :: text) = (items (document less) >>= fun docs => pure (.array docs)) text := rfl
    rw [step, bind_ok taken]
    rfl
  | @object less text _ _ taken =>
    have step : document (less + 1) ('\x7b' :: text) =
        (members Reader.string (documentMember less) [] >>= fun found => pure (.object found)) text := rfl
    rw [step, bind_ok taken]
    rfl

/-- A reading settles as expected: with the same value and the given rest of the text, or with a fault. -/
inductive Settles : Except ε α → List Char → Except Fault (α × List Char) → Prop where
  | ok (value : α) (rest : List Char) : Settles (.ok value) rest (.ok (value, rest))
  | error (cause : ε) (rest : List Char) (fault : Fault) : Settles (.error cause) rest (.error fault)

theorem Settles.bind {expected : Except ε α} {next : α → Except ε β} {first : Reader α} {follow : α → Reader β}
    (one : Settles expected middle (first before)) (two : ∀ value, Settles (next value) after (follow value middle)) :
    Settles (expected >>= next) after ((first >>= follow) before) := by
  change Settles _ _ (first before >>= fun taken => follow taken.1 taken.2)
  generalize first before = taken at one
  cases one with
  | ok value => exact two value
  | error cause _ fault => exact .error cause after fault

theorem Settles.map {expected : Except ε α} {reader : Reader α} (one : Settles expected after (reader before))
    (change : α → β) : Settles (change <$> expected) after ((change <$> reader) before) := by
  change Settles _ _ (reader before >>= fun taken => .ok (change taken.1, taken.2))
  generalize reader before = taken at one
  cases one with
  | ok value => exact .ok (change value) after
  | error cause _ fault => exact .error cause after fault

def Follows (depth bound : Nat) (reader : Reader α) (ofJson : Json → Except ε α) : Prop :=
  ∀ before doc after, before.length ≤ bound → document depth before = .ok (doc, after) →
    Settles (ofJson doc) after (reader before)

end Reader

end Json

end CallChart
