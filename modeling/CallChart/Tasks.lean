import CallChart.Render
import CallChart.Files.Disk
import CallChart.Text.Logged

/-! What is done with files: loading graphs, and writing the diagrams of one or of several. -/

namespace CallChart

namespace Tasks

variable {m : Type → Type} [Monad m] [Disk m]

def loadGraph (input : String) : Task m Graph := do
  let text ← Disk.context ("Cannot read graph file " ++ input) (Disk.readText input)
  Disk.pureStep (Graph.ofText text)

def renderFile (format : Format) (style : Style) (input output : String) : Task m Unit := do
  let graph ← Disk.context ("Failed to load graph from " ++ input) (loadGraph input)
  let text ← Disk.pureStep (during ("Failed to render " ++ input) (failing .graph (graph.render format style)))
  Disk.context ("Failed to write " ++ output) (Disk.step (Disk.writeText output text))

def renderInput (format : Format) (style : Style) (input : String) : Task m String := do
  let graph ← loadGraph input
  Disk.pureStep (failing .graph (graph.render format style))

/-- The diagrams of several graphs, in the order of the inputs. One that fails does not stop the others. -/
def renderBatch (format : Format) (style : Style) (inputs : List String) :
    m (List (String × Except Failure String)) :=
  inputs.mapM fun input => do return (input, ← (renderInput format style input).run)

def outputStem (input : String) : String := ((Path.fileName? input).map Path.stem).getD "diagram"

def outputName (format : Format) (input : String) : String := outputStem input ++ "." ++ format.extension

def outputPath (format : Format) (directory input : String) : String :=
  Path.join directory (outputName format input)

structure LogEntry where
  failure : Failure
  input : Option String := none

/-- The wording of a log entry: one line, which does not go into what is wrong inside a document. It ends
with the words that JSON without a graph is refused with, and before those that a fault in TOML opens
with. -/
def LogEntry.text (entry : LogEntry) : String :=
  let message := Text.logged entry.failure.message
  let line := Text.firstLine <|
    match entry.input with
    | some input => message ++ " input=" ++ input
    | none => message
  String.ofList (Text.before ": TOML parse error".toList (Text.through Graph.unreadable.toList line.toList))

/-- Writes rendered diagrams to a directory, up to the first that cannot be written, and logs the inputs
that failed before. -/
def writeAll (format : Format) (directory : String) :
    List (String × Except Failure String) → m (List LogEntry × Except Failure Unit)
  | [] => return ([], .ok ())
  | (input, .error failure) :: rest => do
    let (entries, result) ← writeAll format directory rest
    return ({ failure, input := some input } :: entries, result)
  | (input, .ok text) :: rest => do
    let output := outputPath format directory input
    match ← (Disk.context ("Failed to write " ++ output) (Disk.step (Disk.writeText (m := m) output text))).run with
    | .ok () => writeAll format directory rest
    | .error failure => return ([], .error failure)

/-- Writes the diagrams of several graphs to a directory. Failed inputs are logged, and fail the whole
once all others are written. The pool of workers that renders is taken to start, and two names to
stand for two files: a tree of files has no links. -/
def renderMany (format : Format) (style : Style) (inputs : List String) (directory : String) :
    m (List LogEntry × Except Failure Unit) := do
  let items ← renderBatch format style inputs
  let (entries, result) ← writeAll format directory items
  let failed := (items.filter fun item => !item.2.isOk).length
  match result with
  | .error failure => return (entries, .error failure)
  | .ok () =>
    if failed = 0 then return (entries, .ok ())
    else return (entries, .error (.plain (failed.repr ++ " of " ++ inputs.length.repr ++ " inputs failed")))

end Tasks

end CallChart
