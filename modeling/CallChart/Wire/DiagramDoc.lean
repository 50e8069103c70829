import CallChart.Callers
import CallChart.Diagram.Basic
import CallChart.Wire.GraphDoc

/-! Diagrams and caller lists as they travel. -/

namespace CallChart

def Occurrence.toJson (occurrence : Occurrence) : Json :=
  .object [
    ("id", .string occurrence.id),
    ("rawId", .string occurrence.node.id),
    ("label", .string occurrence.node.label),
    ("kind", .string occurrence.node.kind.name),
    ("startLine", .natural occurrence.node.firstLine),
    ("endLine", .natural occurrence.node.lastLine),
    ("prev", .strings occurrence.prev.toList),
    ("next", .strings occurrence.next.toList)]

def Edge.toJson (edge : Edge) : Json :=
  .object [
    ("id", .string edge.id),
    ("source", .string edge.source),
    ("target", .string edge.target),
    ("isLoopBackEdge", .bool edge.loopBack)]

def Diagram.toJson (diagram : Diagram) : Json :=
  .object [
    ("nodes", .array (diagram.narrative.occurrences.map Occurrence.toJson)),
    ("edges", .array (diagram.edges.map Edge.toJson))]

def Caller.toJson (caller : Caller) : Json :=
  .object [
    ("id", .string caller.node.id),
    ("label", .string caller.node.label),
    ("line", .natural caller.line)]

def CallerList.toJson (list : CallerList) : Json :=
  .object [
    ("targetId", .string list.target.id),
    ("targetLabel", .string list.target.label),
    ("callers", .array (list.callers.map Caller.toJson))]

end CallChart
