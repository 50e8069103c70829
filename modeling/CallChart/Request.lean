import CallChart.Render

/-! Requests of an editor: each is a JSON text with a command and its parameters, and is answered by a
JSON value. -/

namespace CallChart

structure Request where
  command : String
  params : Option Json

namespace Request

structure Draft where
  command : Option String := none
  params : Option (Option Json) := none

/-- The fields of a request. Parameters may be left out. Lists and objects nest at most 127 deep, the
request itself included. -/
def record : Json.Decoder.Record Draft Request where
  name := "CommandReq"
  fields := [
    { name := "command"
      decoder := Json.Decoder.string.map fun value draft => { draft with command := some value }
      filled := fun draft => draft.command.isSome
      listed := true },
    { name := "params"
      decoder := (Json.Decoder.optional 126).map fun value draft => { draft with params := some value }
      filled := fun draft => draft.params.isSome
      listed := true }]
  draft := {}
  finish draft := do
    let command ← NodeDoc.required "command" draft.command
    return { command, params := draft.params.getD none }

def decoder : Json.Decoder Request := .record record

def needParams (request : Request) : Except Failure Json :=
  match request.params with
  | some params => .ok params
  | none => .error (.plain ("Missing params for " ++ request.command))

def graphParam (params : Json) : Except Failure Graph := do
  match params.member? "graph" with
  | none => throw (.plain "Missing 'graph' param")
  | some json =>
    let doc ← during "Invalid 'graph' param"
      (failing (fun mismatch => .json (.mismatch mismatch)) (GraphDoc.decoder.ofJson json))
    failing .graph doc.toGraph

/-- The format among the parameters, by default the interactive one. -/
def formatParam (params : Json) : Except Failure Format :=
  let name := ((params.member? "format").bind Json.asString?).getD "interactive"
  match Format.ofName? name with
  | some format => .ok format
  | none => .error (.plain ("Unknown format: " ++ name))

def lineParam (params : Json) : Except Failure Line :=
  match (params.member? "line").bind Json.asNatural? with
  | some line => .ok line
  | none => .error (.plain "Missing 'line' param")

/-- Answers a request for a diagram: its text, or for JSON the value that its text denotes. -/
def render (style : Style) (params : Json) : Except Failure Json := do
  let graph ← graphParam params
  let format ← formatParam params
  let text ← failing .graph (graph.render format style)
  match format with
  | .json => failing .json ((Json.Reader.value 127).run text)
  | _ => return .string text

def callers (params : Json) : Except Failure Json := do
  let graph ← graphParam params
  let line ← lineParam params
  match graph.callersAt? line with
  | some list => return list.toJson
  | none => return .null

def perform (style : Style) (request : Request) : Except Failure Json :=
  match request.command with
  | "PING" => .ok (.string "PONG")
  | "RENDER" => do render style (← request.needParams)
  | "CALLERS" => do callers (← request.needParams)
  | "SHUTDOWN" => .ok (.string "Shutting down...")
  | other => .error (.plain ("Unknown command: " ++ other))

end Request

end CallChart
