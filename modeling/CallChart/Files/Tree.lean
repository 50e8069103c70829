import CallChart.Failure
import CallChart.Files.Path
import CallChart.Ordered.Map

/-! A tree of files as a value, with the rules by which paths are followed in it. Every operation on
files either gives a result or says why not, in the way of a Unix system. -/

namespace CallChart

/-- The names on the way from the working directory to a place. Places above it start with two dots, and
those under the root with a slash. -/
abbrev Place := List String

structure FileTree where
  directories : List Place := []
  files : OrderedMap Place ByteArray := ∅

namespace FileTree

/-- Whether a place lies at or above the working directory, or is the root. -/
def above (place : Place) : Bool := place = ["/"] || place.all (· = "..")

def isDirectoryAt (tree : FileTree) (place : Place) : Bool := above place || place ∈ tree.directories

def up (place : Place) : Place :=
  if place = ["/"] then place
  else if above place then place ++ [".."]
  else place.dropLast

def child (place : Place) (name : String) : Except SystemError Place :=
  if name = "." then .ok place
  else if name = ".." then .ok (up place)
  else if 255 < name.utf8ByteSize then .error .nameTooLong
  else .ok (place ++ [name])

def descend (tree : FileTree) : Place → List String → Except SystemError Place
  | place, [] => .ok place
  | place, name :: rest => do
    let next ← child place name
    if tree.isDirectoryAt next then tree.descend next rest
    else if (tree.files.find? next).isSome then throw .notDirectory
    else throw .notFound

def start (path : String) : Place := if Path.rooted path then ["/"] else []

/-- Where a path leads: a directory that is there, and what is named last in it. -/
structure Target where
  directory : Place
  /-- The last name; a single dot stands for the directory itself. -/
  name : String
  slash : Bool

namespace Target

def named (target : Target) : Bool := target.name ≠ "." && target.name ≠ ".."

def place (target : Target) : Except SystemError Place := child target.directory target.name

end Target

/-- Follows a path up to its last name, which need not be there. -/
def target (tree : FileTree) (path : String) : Except SystemError Target := do
  if path = "" then throw .notFound
  if path.toList.contains '\x00' then throw .badPath
  if 4095 < path.utf8ByteSize then throw .nameTooLong
  let names := Path.names path
  let directory ← tree.descend (start path) names.dropLast
  return { directory, name := names.getLast?.getD ".", slash := Path.slashed path }

def read (tree : FileTree) (path : String) : Except SystemError ByteArray := do
  let target ← tree.target path
  let place ← target.place
  if tree.isDirectoryAt place then throw .isDirectory
  match tree.files.find? place with
  | none => throw .notFound
  | some content => if target.slash then throw .notDirectory else return content

def isFile (tree : FileTree) (path : String) : Bool := (tree.read path).isOk

def isDirectory (tree : FileTree) (path : String) : Bool :=
  match tree.target path >>= Target.place with
  | .ok place => tree.isDirectoryAt place
  | .error _ => false

/-- Makes a file at the end of a path, or replaces its content. A path that cannot end in a file is
refused before its last name is looked at. -/
def write (tree : FileTree) (path : String) (content : ByteArray) : Except SystemError FileTree := do
  let target ← tree.target path
  if !target.named || target.slash then throw .isDirectory
  let place ← target.place
  if tree.isDirectoryAt place then throw .isDirectory
  return { tree with files := tree.files.insert place content }

def makeDirectory (tree : FileTree) (path : String) : Except SystemError FileTree := do
  let target ← tree.target path
  let place ← target.place
  if !target.named || tree.isDirectoryAt place || (tree.files.find? place).isSome then
    throw .alreadyThere
  return { tree with directories := tree.directories ++ [place] }

/-- The directory at a place, with all directories on the way. -/
def withDirectory (tree : FileTree) (place : Place) : FileTree :=
  let way := (List.range (place.length + 1)).map place.take
  { tree with directories := tree.directories ++ way.filter (· ∉ tree.directories) }

def withFile (tree : FileTree) (place : Place) (content : ByteArray) : FileTree :=
  let tree := tree.withDirectory place.dropLast
  { tree with files := tree.files.insert place content }

def changesSince (before after : FileTree) : List (String × ByteArray) :=
  (after.files.entries.filter fun entry => before.files.find? entry.1 != some entry.2).map fun entry =>
    ("/".intercalate entry.1, entry.2)

end FileTree

end CallChart
