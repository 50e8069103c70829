import CallChart.Files.Path
import CallChart.Files.Tree

/-! The file operations that the program needs, whatever carries them out: a tree of files held as a
value, or the files of the machine. -/

namespace CallChart

class Disk (m : Type → Type) where
  read : String → m (Except SystemError ByteArray)
  isFile : String → m Bool
  isDirectory : String → m Bool
  write : String → ByteArray → m (Except SystemError Unit)
  makeDirectory : String → m (Except SystemError Unit)

/-- Keeps the tree that a change gives, and the old one where it fails. -/
def FileTree.attempt (change : FileTree → Except SystemError FileTree) :
    StateM FileTree (Except SystemError Unit) := do
  match change (← get) with
  | .ok tree => do
    set tree
    return .ok ()
  | .error fault => return .error fault

instance : Disk (StateM FileTree) where
  read path := return (← get).read path
  isFile path := return (← get).isFile path
  isDirectory path := return (← get).isDirectory path
  write path content := FileTree.attempt (·.write path content)
  makeDirectory path := FileTree.attempt (·.makeDirectory path)

abbrev Task (m : Type → Type) (α : Type) := ExceptT Failure m α

namespace Disk

variable {m : Type → Type} [Monad m] [Disk m]

def step {α : Type} (operation : m (Except SystemError α)) : Task m α :=
  ExceptT.mk (failing Cause.system <$> operation)

def context {α : Type} (doing : String) (task : Task m α) : Task m α :=
  ExceptT.mk (during doing <$> task.run)

def pureStep {α : Type} (result : Except Failure α) : Task m α := ExceptT.mk (pure result)

def readText (path : String) : Task m String := do
  let content ← step (Disk.read path)
  match String.fromUTF8? content with
  | some text => return text
  | none => throw { cause := .system .notText }

def ensureDirectory (path : String) : m (Except SystemError Unit) := do
  match ← Disk.makeDirectory (m := m) path with
  | .ok () => return .ok ()
  | .error fault =>
    if ← Disk.isDirectory path then return .ok () else return .error fault

/-- Makes the directories that are missing, innermost first, and then those that needed them. -/
def ensureDirectories : List String → m (Except SystemError Unit)
  | [] => return .ok ()
  | path :: parents => do
    if path = "" then return .ok ()
    match ← ensureDirectory path with
    | .error .notFound => do
      match ← ensureDirectories parents with
      | .ok () => ensureDirectory path
      | .error fault => return .error fault
    | result => return result

def writeText (path text : String) : m (Except SystemError Unit) := do
  match ← ensureDirectories (Path.directories path) with
  | .error fault => return .error fault
  | .ok () => Disk.write path text.toUTF8

end Disk

end CallChart
