import CallChart.Graph.Basic

/-! A narrative tells a call graph as a sequence of occurrences of its nodes. Occurrences are linked
by id: what comes next, and what came before. Two occurrences can end up with one id, and then the
id stands for the later one. -/

namespace CallChart

/-- One telling of a node. -/
structure Occurrence where
  id : String
  node : Node
  prev : OrderedSet String := ∅
  next : OrderedSet String := ∅
deriving DecidableEq

def lastIndex? {α : Type} (test : α → Bool) : List α → Option Nat
  | [] => none
  | first :: rest =>
    match lastIndex? test rest with
    | some index => some (index + 1)
    | none => if test first then some 0 else none

structure Narrative where
  occurrences : List Occurrence := []
deriving DecidableEq

namespace Narrative

def ids (narrative : Narrative) : List String := narrative.occurrences.map Occurrence.id

def position? (narrative : Narrative) (id : String) : Option Nat :=
  lastIndex? (fun occurrence => occurrence.id = id) narrative.occurrences

def get? (narrative : Narrative) (id : String) : Option Occurrence :=
  (narrative.position? id).bind (narrative.occurrences[·]?)

def contains (narrative : Narrative) (id : String) : Bool :=
  narrative.occurrences.any (fun occurrence => occurrence.id = id)

def tells (narrative : Narrative) (id : String) : Bool :=
  narrative.occurrences.any (fun occurrence => occurrence.node.id = id)

/-- How many occurrences of a node have an id other than the node's own. -/
def renamed (narrative : Narrative) (id : String) : Nat :=
  narrative.occurrences.countP (fun occurrence => occurrence.node.id = id && occurrence.id ≠ id)

def push (narrative : Narrative) (occurrence : Occurrence) : Narrative :=
  ⟨narrative.occurrences ++ [occurrence]⟩

def modify (narrative : Narrative) (id : String) (change : Occurrence → Occurrence) : Narrative :=
  match narrative.position? id with
  | some index => ⟨narrative.occurrences.modify index change⟩
  | none => narrative

def link (narrative : Narrative) (source target : String) : Narrative :=
  (narrative.modify source (fun occurrence => { occurrence with next := occurrence.next.insert target })).modify
    target (fun occurrence => { occurrence with prev := occurrence.prev.insert source })

def linkAll (narrative : Narrative) (sources : List String) (target : String) : Narrative :=
  sources.foldl (fun narrative source => narrative.link source target) narrative

end Narrative

end CallChart
