import CallChart.CommandLine.Arguments
import CallChart.Settings
import CallChart.Tasks

/-! What the program does with its arguments: it ends with a code, a text on its output and messages in
its log, or goes on to answer requests. -/

namespace CallChart

namespace CommandLine

structure Report where
  code : Nat
  output : String := ""
  errors : List String := []
deriving DecidableEq

inductive Outcome where
  | ended (report : Report)
  | listening (socket : Nat) (style : Style)

def versionText : String := "paraflow 0.1.0\n"

def Halt.report : Halt → Report
  | misuse => { code := 2 }
  | help => { code := 0 }
  | version => { code := 0, output := versionText }

def report (entries : List Tasks.LogEntry) : Except Failure String → Report
  | .ok output => { code := 0, output, errors := entries.map Tasks.LogEntry.text }
  | .error failure =>
    let last : Tasks.LogEntry := { failure := failure }
    { code := 1, errors := (entries ++ [last]).map Tasks.LogEntry.text }

variable {m : Type → Type} [Monad m] [Disk m]

def formatOf (name : String) : Except Failure Format :=
  match Format.ofName? name with
  | some format => .ok format
  | none => .error (.plain ("Unknown format: " ++ name))

/-- Writes diagrams. Settings are looked for at the first input. -/
def render (config : Option String) (inputs : List String) (output name : String) : m Report := do
  let prepared : Task m (Format × Style) := do
    let format ← Disk.pureStep (formatOf name)
    return (format, (← Settings.resolve config inputs.head?).style)
  match ← prepared.run with
  | .error failure => return report [] (.error failure)
  | .ok (format, style) =>
    match inputs with
    | [input] => do
      let result ← (Tasks.renderFile (m := m) format style input output).run
      return report [] (result.map fun _ =>
        "Diagram written to " ++ output ++ " (format: " ++ format.title ++ ")\n")
    | _ => do
      let (entries, result) ← Tasks.renderMany format style inputs output
      return report entries (result.map fun _ =>
        inputs.length.repr ++ " diagrams written to " ++ output ++ "\n")

def callers (input : String) (line : Line) : m Report := do
  let listed : Task m String := do
    let graph ← Tasks.loadGraph input
    match graph.callersAt? line with
    | some list => return list.toJson.pretty 0 ++ "\n"
    | none => throw (.plain ("No paragraph encloses line " ++ line.toNat.repr))
  return report [] (← listed.run)

def perform (invocation : Invocation) : m Outcome := do
  match invocation.command with
  | .render inputs output format => return .ended (← render invocation.config inputs output format)
  | .callers input line => return .ended (← callers input line)
  | .serve socket => do
    match ← (Settings.resolve (m := m) invocation.config none).run with
    | .ok settings => return .listening socket settings.style
    | .error failure => return .ended (report [] (.error failure))

def run (arguments : List String) : m Outcome :=
  match parse arguments with
  | .error halt => return .ended halt.report
  | .ok invocation => perform invocation

end CommandLine

end CallChart
