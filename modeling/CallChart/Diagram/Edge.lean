import CallChart.Narrative.Basic
import CallChart.Ordered.Distinct

/-! The edges of a narrative: its links as a list, one for each written form, in the order of the
occurrences they leave from. -/

namespace CallChart

structure Edge where
  source : String
  target : String
  /-- Whether the edge returns to a loop header that was told earlier. -/
  loopBack : Bool := false
deriving DecidableEq

/-- The written form of an edge, by which edges are told apart. -/
def Edge.id (edge : Edge) : String := edge.source ++ "-" ++ edge.target

namespace Narrative

/-- Whether an id stands for a loop header told at the given position or before. -/
def returnsTo (narrative : Narrative) (target : String) (position : Nat) : Bool :=
  (narrative.get? target).any (·.node.kind = .loop) && (narrative.position? target).any (· ≤ position)

def edgesFrom (narrative : Narrative) (occurrence : Occurrence) (position : Nat) : List Edge :=
  occurrence.next.toList.map fun target =>
    { source := occurrence.id, target, loopBack := narrative.returnsTo target position }

def edges (narrative : Narrative) : List Edge :=
  distinctOn Edge.id []
    (narrative.occurrences.zipIdx.flatMap fun (occurrence, position) =>
      narrative.edgesFrom occurrence position)

end Narrative

end CallChart
