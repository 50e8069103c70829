import CallChart.Ordered.Map

/-! The nodes of a call graph: what they stand for, and the stretch of program text they cover. -/

namespace CallChart

abbrev Line := UInt64

inductive Kind where
  | start
  /-- A named paragraph. -/
  | normal
  | condition
  | conditionElse
  | loop
deriving DecidableEq, Repr

namespace Kind

/-- Whether a node of this kind may be told more than once. -/
def duplicable : Kind → Bool
  | .start | .loop => false
  | .normal | .condition | .conditionElse => true

/-- Whether a node of this kind has a meaning only through its callees. -/
def structural : Kind → Bool
  | .start | .normal => false
  | .condition | .conditionElse | .loop => true

end Kind

/-- A node of the call graph, with the line of its first invocation by each caller, where known. -/
structure Node where
  id : String
  label : String
  kind : Kind
  firstLine : Line
  lastLine : Line
  invocations : OrderedMap String Line := ∅
deriving DecidableEq

namespace Node

def encloses (node : Node) (line : Line) : Bool :=
  node.firstLine ≤ line && line ≤ node.lastLine

/-- Equality that ignores the order of invocations. -/
def same (first second : Node) : Bool :=
  first.id = second.id && first.label = second.label && first.kind = second.kind &&
    first.firstLine = second.firstLine && first.lastLine = second.lastLine &&
    first.invocations.sameEntries (· = ·) second.invocations

end Node

end CallChart
