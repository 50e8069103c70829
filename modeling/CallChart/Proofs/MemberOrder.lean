import CallChart.Proofs.Streaming
import Mathlib.Logic.Relator

/-! The order of the members of an object does not matter to a decoder, as long as no name is repeated. A value that
is read from text has its members sorted, where the text may have them in any order. -/

namespace CallChart

open scoped Relator

namespace Json

mutual

def sorted : Json → Json
  | .array items => .array (sortedItems items)
  | .object members => .object (sortedMembers members [])
  | json => json

def sortedItems : List Json → List Json
  | [] => []
  | item :: rest => sorted item :: sortedItems rest

def sortedMembers : List (String × Json) → List (String × Json) → List (String × Json)
  | [], stored => stored
  | (name, json) :: rest, stored => sortedMembers rest (insertMember name (sorted json) stored)

end

namespace Reader

variable {α β σ τ : Type}

end Reader

/-- No object has two members of the same name. -/
inductive Unrepeated : Json → Prop where
  | null : Unrepeated .null
  | bool (value : Bool) : Unrepeated (.bool value)
  | number (value : Number) : Unrepeated (.number value)
  | string (value : String) : Unrepeated (.string value)
  | array {items : List Json} (inside : ∀ item ∈ items, Unrepeated item) : Unrepeated (.array items)
  | object {members : List (String × Json)} (distinct : (members.map Prod.fst).Nodup)
      (inside : ∀ member ∈ members, Unrepeated member.2) : Unrepeated (.object members)

theorem Unrepeated.strings (texts : List String) : Unrepeated (.strings texts) := by
  apply Unrepeated.array
  intro item listed
  obtain ⟨text, -, rfl⟩ := List.mem_map.1 listed
  exact .string text

end Json

/-- Two attempts agree: both succeed, with related results, or both fail. -/
inductive Agrees {ε α β : Type} (rel : α → β → Prop) : Except ε α → Except ε β → Prop where
  | ok {first : α} {second : β} (related : rel first second) : Agrees rel (.ok first) (.ok second)
  | error (first second : ε) : Agrees rel (.error first) (.error second)

namespace Agrees

variable {ε α β σ μ : Type} {rel : α → α → Prop} {mapped : β → β → Prop}

theorem bind {first second : Except ε α} {next follow : α → Except ε β} (one : Agrees rel first second)
    (two : ∀ left right, rel left right → Agrees mapped (next left) (follow right)) :
    Agrees mapped (first >>= next) (second >>= follow) := by
  cases one with
  | ok related => exact two _ _ related
  | error first second => exact .error first second

theorem map {first second : Except ε α} {change other : α → β} (one : Agrees rel first second)
    (two : ∀ left right, rel left right → mapped (change left) (other right)) :
    Agrees mapped (change <$> first) (other <$> second) := by
  cases one with
  | ok related => exact .ok (two _ _ related)
  | error first second => exact .error first second

theorem imp {wider : α → α → Prop} {first second : Except ε α} (one : Agrees rel first second)
    (weaker : ∀ left right, rel left right → wider left right) : Agrees wider first second := by
  cases one with
  | ok related => exact .ok (weaker _ _ related)
  | error first second => exact .error first second

theorem trans (equivalence : Equivalence rel) {first second third : Except ε α} (one : Agrees rel first second)
    (two : Agrees rel second third) : Agrees rel first third := by
  cases one with
  | ok related =>
    cases two with
    | ok other => exact .ok (equivalence.trans related other)
  | error first _ =>
    cases two with
    | error _ third => exact .error first third

end Agrees

section Folds

variable {ε σ μ : Type} {rel : σ → σ → Prop} {step : σ → μ → Except ε σ}

end Folds

namespace Json

namespace Decoder

variable {α β : Type} {rel : α → α → Prop}

def SameEntries (first second : OrderedMap String α) : Prop := ∀ name, first.find? name = second.find? name

theorem SameEntries.insert {first second : OrderedMap String α} (same : SameEntries first second) (name : String)
    (value : α) : SameEntries (first.insert name value) (second.insert name value) := by
  intro key
  rw [OrderedMap.find?_insert, OrderedMap.find?_insert, same key]

theorem SameEntries.swap (table : OrderedMap String α) {name other : String} (apart : name ≠ other) (first second : α) :
    SameEntries ((table.insert name first).insert other second) ((table.insert other second).insert name first) := by
  intro key
  simp only [OrderedMap.find?_insert]
  grind

section Records

variable {δ : Type} {drafts : δ → δ → Prop}

namespace Record

variable {record : Record δ α}

end Record

end Records

end Decoder

end Json

end CallChart
