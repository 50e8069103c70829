/-! Paths as text. A path is a list of segments between slashes; empty segments and single dots inside
it name nothing. -/

namespace CallChart

namespace Path

def segments (path : String) : List String := (path.toList.splitOn '/').map String.ofList

def names (path : String) : List String := (segments path).filter (· ≠ "")

def rooted (path : String) : Bool := path.toList.head? = some '/'

def slashed (path : String) : Bool := path.toList.getLast? = some '/'

/-- Whether a segment after the first names nothing. -/
def idle (segment : String) : Bool := segment = "" || segment = "."

/-- Segments without those at the end that name nothing. The first one stays, since it tells where the
path starts. -/
def trimmed : List String → List String
  | [] => []
  | first :: rest => first :: (rest.reverse.dropWhile idle).reverse

/-- The segments up to the one that a path names, unless it names nothing but a start. -/
def named? (path : String) : Option (List String) :=
  match trimmed (segments path) with
  | [] | [""] => none
  | parts => some parts

def ofLeading (parts : List String) : String :=
  if parts = [""] then "/" else "/".intercalate parts

def parent? (path : String) : Option String :=
  (named? path).map fun parts => ofLeading (trimmed parts.dropLast)

def ancestorsLoop : Nat → String → List String
  | 0, path => [path]
  | fuel + 1, path =>
    match parent? path with
    | some parent => path :: ancestorsLoop fuel parent
    | none => [path]

def ancestors (path : String) : List String := ancestorsLoop (path.length + 1) path

def directories (path : String) : List String :=
  match parent? path with
  | some parent => if parent = "" then [] else ancestors parent
  | none => []

def join (directory name : String) : String :=
  if directory = "" || rooted name then name
  else if slashed directory then directory ++ name
  else directory ++ "/" ++ name

def fileName? (path : String) : Option String :=
  match (named? path).bind List.getLast? with
  | some name => if name = ".." || name = "." then none else some name
  | none => none

/-- A name without its last ending. A dot at the start belongs to the name. -/
def stem (name : String) : String :=
  let ending := name.toList.reverse.takeWhile (· ≠ '.')
  let before := (name.toList.reverse.drop (ending.length + 1)).reverse
  if before.isEmpty then name else String.ofList before

end Path

end CallChart
