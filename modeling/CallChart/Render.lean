import CallChart.Diagram.Flowchart
import CallChart.Failure
import CallChart.Wire.DiagramDoc

/-! Reading graphs and writing diagrams as text. -/

namespace CallChart

inductive Format where
  | markdown
  | interactive
  | json
deriving DecidableEq, Repr

namespace Format

/-- The lower-case form of a character, as far as it is an ASCII letter. Besides the capital letters
only the Kelvin sign has one. -/
def lowerAscii (char : Char) : Char := if char = '\u212a' then 'k' else char.toLower

def ofName? (name : String) : Option Format :=
  match String.ofList (name.toList.map lowerAscii) with
  | "markdown" | "md" => some markdown
  | "interactive" | "view" | "mmd" => some interactive
  | "json" => some json
  | _ => none

def extension : Format → String
  | markdown => "md"
  | interactive => "mmd"
  | json => "json"

def title : Format → String
  | markdown => "Markdown"
  | interactive => "Interactive"
  | json => "Json"

end Format

def Diagram.render (diagram : Diagram) (format : Format) (style : Style) : String :=
  match format with
  | .markdown => style.flowchart diagram.narrative diagram.edges .markdown
  | .interactive => style.flowchart diagram.narrative diagram.edges .interactive
  | .json => diagram.toJson.pretty 0

def Graph.render (graph : Graph) (format : Format) (style : Style) : Except GraphError String :=
  graph.diagram.map fun diagram => diagram.render format style

def Graph.unreadable : String := "Invalid raw graph JSON"

def Graph.ofText (text : String) : Except Failure Graph := do
  let doc ← during Graph.unreadable (failing .json (GraphDoc.decoder.read.run text))
  during "Raw graph violates the upstream contract" (failing .graph doc.toGraph)

def Graph.toText (graph : Graph) : String := graph.toDoc.toJson.compact

end CallChart
