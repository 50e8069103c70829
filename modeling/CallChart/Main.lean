import CallChart.CommandLine.Run

/-! The program itself: its arguments come from the command line and its files from the machine. -/

namespace CallChart

def systemError : IO.Error → SystemError
  | .noFileOrDirectory .. => .notFound
  | .alreadyExists .. => .alreadyThere
  | .inappropriateType _ 20 _ => .notDirectory
  | .inappropriateType .. => .isDirectory
  | .invalidArgument _ 36 _ => .nameTooLong
  | .invalidArgument .. => .badPath
  | _ => .notFound

def attempt {α : Type} (action : IO α) : IO (Except SystemError α) := do
  match ← action.toBaseIO with
  | .ok value => return .ok value
  | .error fault => return .error (systemError fault)

instance : Disk IO where
  read path := attempt (IO.FS.readBinFile path)
  isFile path := return (← attempt (IO.FS.readBinFile path)).isOk
  isDirectory path := do
    let opened ← attempt (IO.FS.readBinFile (path ++ "/."))
    match opened with
    | .error .isDirectory => return true
    | _ => return false
  write path content := attempt (IO.FS.writeBinFile path content)
  makeDirectory path := attempt (IO.FS.createDir path)

def printReport (report : CommandLine.Report) : IO UInt32 := do
  IO.print report.output
  for message in report.errors do
    IO.eprintln ("ERROR " ++ message)
  return report.code.toUInt32

end CallChart

/-- Runs the program. Answering requests at a socket needs a network, which it does not have. -/
def main (arguments : List String) : IO UInt32 := do
  match ← CallChart.CommandLine.run (m := IO) arguments with
  | .ended report => CallChart.printReport report
  | .listening socket _ =>
    CallChart.printReport { code := 1, errors := ["Failed to bind to 127.0.0.1:" ++ socket.repr] }
