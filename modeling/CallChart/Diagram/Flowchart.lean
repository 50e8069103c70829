import CallChart.Diagram.Edge

/-! The text of a diagram in the Mermaid flowchart language, either fenced for a Markdown document or
for an interactive view in which each node leads to its line. -/

namespace CallChart

structure Style where
  direction : String := "TD"
  /-- Labels of the interactive view with more characters than this are cut. -/
  labelLimit : Nat := 75
  ellipsis : String := "..."
  /-- Whether edges back to a loop header are dotted. -/
  dottedLoops : Bool := false
deriving DecidableEq, Repr

inductive View where
  /-- In a Markdown document: whole labels, with line numbers. -/
  | markdown
  /-- In an editor: labels of limited length, with a binding for each node. -/
  | interactive
deriving DecidableEq, Repr

namespace Style

def escapeChar : Char → List Char
  | '"' => "#quot;".toList
  | '\n' => [' ']
  | char => [char]

def escape (label : String) : String := String.ofList (label.toList.flatMap escapeChar)

def shorten (style : Style) (label : String) : String :=
  if label.length ≤ style.labelLimit then label
  else String.ofList (label.toList.take style.labelLimit) ++ style.ellipsis

def boxText (style : Style) (occurrence : Occurrence) : View → String
  | .markdown => escape occurrence.node.label ++ " (" ++ occurrence.node.firstLine.toNat.repr ++ ")"
  | .interactive => escape (style.shorten occurrence.node.label)

/-- One end of an edge: the id with its box, or the bare id when nothing has it. -/
def endpoint (style : Style) (view : View) (narrative : Narrative) (id : String) : String :=
  match narrative.get? id with
  | some occurrence => occurrence.id ++ "[\"" ++ style.boxText occurrence view ++ "\"]"
  | none => id

def arrow (style : Style) (edge : Edge) : String :=
  if style.dottedLoops && edge.loopBack then "-.->" else "-->"

def edgeLine (style : Style) (view : View) (narrative : Narrative) (edge : Edge) : String :=
  style.endpoint view narrative edge.source ++ " " ++ style.arrow edge ++ " " ++
    style.endpoint view narrative edge.target

def header (style : Style) : String := "flowchart " ++ style.direction

def binding (occurrence : Occurrence) : String :=
  "click " ++ occurrence.id ++ " call focusOn(" ++ occurrence.node.firstLine.toNat.repr ++ ")"

def lines (style : Style) (narrative : Narrative) (edges : List Edge) : View → List String
  | .markdown =>
    ["```mermaid", style.header] ++ edges.map (style.edgeLine .markdown narrative) ++ ["```"]
  | .interactive =>
    [style.header] ++ edges.map (style.edgeLine .interactive narrative) ++
      narrative.occurrences.map binding

def flowchart (style : Style) (narrative : Narrative) (edges : List Edge) (view : View) : String :=
  "\n".intercalate (style.lines narrative edges view)

end Style

end CallChart
