import CallChart.Graph.Check
import CallChart.Json.Decoder

/-! A call graph as it travels: each node with its callers and callees written out. Links are
declared on both ends, and both ends must agree. -/

namespace CallChart

structure NodeDoc where
  node : Node
  callers : List String := []
  callees : List String := []
deriving DecidableEq

structure GraphDoc where
  nodes : List NodeDoc
deriving DecidableEq

namespace Kind

def name : Kind → String
  | start => "start"
  | normal => "normal"
  | condition => "condition"
  | conditionElse => "conditionElse"
  | loop => "loop"

/-- All kinds, in the order in which messages list them. -/
def all : List Kind := [start, normal, condition, conditionElse, loop]

end Kind

namespace NodeDoc

structure Draft where
  id : Option String := none
  label : Option String := none
  kind : Option Kind := none
  firstLine : Option Line := none
  lastLine : Option Line := none
  callers : Option (List String) := none
  callees : Option (List String) := none
  invocations : Option (OrderedMap String Line) := none

def required {α : Type} (name : String) : Option α → Except Json.Mismatch α
  | some value => .ok value
  | none => .error (.missingField name)

/-- The document of a draft. Links and invocations may be left out. -/
def finish (draft : Draft) : Except Json.Mismatch NodeDoc := do
  let id ← required "id" draft.id
  let label ← required "label" draft.label
  let kind ← required "kind" draft.kind
  let firstLine ← required "startLine" draft.firstLine
  let lastLine ← required "endLine" draft.lastLine
  return {
    node := { id, label, kind, firstLine, lastLine, invocations := draft.invocations.getD ∅ }
    callers := draft.callers.getD []
    callees := draft.callees.getD [] }

def fields : List (Json.Decoder.Field Draft) := [
  { name := "id"
    decoder := Json.Decoder.string.map fun value draft => { draft with id := some value }
    filled := fun draft => draft.id.isSome
    listed := true },
  { name := "label"
    decoder := Json.Decoder.string.map fun value draft => { draft with label := some value }
    filled := fun draft => draft.label.isSome
    listed := true },
  { name := "kind"
    decoder := (Json.Decoder.oneOf (Kind.all.map fun kind => (kind.name, kind))).map
      fun value draft => { draft with kind := some value }
    filled := fun draft => draft.kind.isSome
    listed := true },
  { name := "startLine"
    decoder := Json.Decoder.natural.map fun value draft => { draft with firstLine := some value }
    filled := fun draft => draft.firstLine.isSome
    listed := true },
  { name := "endLine"
    decoder := Json.Decoder.natural.map fun value draft => { draft with lastLine := some value }
    filled := fun draft => draft.lastLine.isSome
    listed := true },
  { name := "callers"
    decoder := (Json.Decoder.list .string).map fun value draft => { draft with callers := some value }
    filled := fun draft => draft.callers.isSome
    listed := false },
  { name := "callees"
    decoder := (Json.Decoder.list .string).map fun value draft => { draft with callees := some value }
    filled := fun draft => draft.callees.isSome
    listed := false },
  { name := "invocations"
    decoder := (Json.Decoder.table .natural).map fun value draft => { draft with invocations := some value }
    filled := fun draft => draft.invocations.isSome
    listed := false }]

def decoder : Json.Decoder NodeDoc :=
  .record { name := "RawNodeDto", fields, draft := {}, finish }

/-- A node document as a value. Invocations are left out where there are none. -/
def toJson (doc : NodeDoc) : Json :=
  .object ([
    ("id", .string doc.node.id),
    ("label", .string doc.node.label),
    ("kind", .string doc.node.kind.name),
    ("startLine", .natural doc.node.firstLine),
    ("endLine", .natural doc.node.lastLine),
    ("callers", .strings doc.callers),
    ("callees", .strings doc.callees)] ++
    if doc.node.invocations.entries = [] then []
    else [("invocations",
      .object (doc.node.invocations.entries.map fun entry => (entry.1, .natural entry.2)))])

end NodeDoc

namespace GraphDoc

def decoder : Json.Decoder GraphDoc :=
  .record {
    name := "RawGraphDto"
    fields := [
      { name := "nodes"
        decoder := (Json.Decoder.list NodeDoc.decoder).map fun value _ => some value
        filled := Option.isSome
        listed := true }]
    draft := none
    finish := fun draft => GraphDoc.mk <$> NodeDoc.required "nodes" draft }

def toJson (doc : GraphDoc) : Json := .object [("nodes", .array (doc.nodes.map NodeDoc.toJson))]

def addNodes (graph : Graph) (docs : List NodeDoc) : Except GraphError Graph :=
  docs.foldlM (fun graph doc => graph.add doc.node) graph

def linkCallees (graph : Graph) (docs : List NodeDoc) : Graph :=
  docs.foldl (fun graph doc => doc.callees.foldl (fun graph callee => graph.link doc.node.id callee) graph)
    graph

/-- The faults of a node's declared callers: those that are not nodes or do not declare the node as a
callee, and then those that were left out. -/
def callerFaults (graph : Graph) (doc : NodeDoc) : List GraphError :=
  doc.callers.flatMap (fun caller =>
    if !graph.contains caller then [.unknownCaller caller]
    else if doc.node.id ∈ graph.callees caller then []
    else [.oneSidedLink caller doc.node.id]) ++
  ((graph.callers doc.node.id).filter (· ∉ doc.callers)).map (.oneSidedLink · doc.node.id)

/-- The graph of a document. Callees make the links, the graph must pass its check, and the declared
callers must be the ones that the links give. -/
def toGraph (doc : GraphDoc) : Except GraphError Graph := do
  let graph := linkCallees (← addNodes {} doc.nodes) doc.nodes
  graph.check
  match doc.nodes.flatMap (callerFaults graph) with
  | [] => return graph
  | first :: _ => throw first

end GraphDoc

def Graph.toDoc (graph : Graph) : GraphDoc where
  nodes := graph.nodes.map fun node =>
    { node, callers := graph.callers node.id, callees := graph.callees node.id }

end CallChart
