/-! TOML documents as trees, and the rules by which keys and headers grow them. A table remembers how
it came to be, since that decides what may still be added to it. -/

namespace CallChart

namespace Toml

inductive Origin where
  | header
  /-- It lies on the way to a table with a header. -/
  | implied
  /-- It lies on the way to a value with a dotted key. -/
  | dotted
  /-- It was written between braces, and is complete. -/
  | inline
deriving DecidableEq, Repr

/-- A part of a document. Of numbers that are not whole and of dates only their presence matters. -/
inductive Item where
  | string (value : String)
  | integer (value : Int)
  | float
  | boolean (value : Bool)
  | date
  | array (items : List Item)
  | table (origin : Origin) (members : List (String × Item))
  | tables (items : List Item)

abbrev Members := List (String × Item)

def member? (members : Members) (key : String) : Option Item :=
  (members.find? (fun member => member.1 = key)).map Prod.snd

def replace (members : Members) (key : String) (item : Item) : Members :=
  members.map fun member => if member.1 = key then (key, item) else member

def changeLast (change : Members → Option Members) (items : List Item) : Option (List Item) :=
  match items.getLast? with
  | some (.table origin members) => do
    return items.dropLast ++ [.table origin (← change members)]
  | _ => none

/-- Stores a value under a dotted key, of which `path` are the parts before the last. Tables on the way
are made as needed. Those with a header of their own and complete ones are closed, and the table
that takes the value must belong to the key. -/
def store (key : String) (value : Item) : Bool → List String → Members → Option Members
  | own, [], members =>
    if own && (member? members key).isNone then some (members ++ [(key, value)]) else none
  | _, part :: path, members =>
    match member? members part with
    | none => do return members ++ [(part, .table .dotted (← store key value true path []))]
    | some (.table .dotted inner) => do
      return replace members part (.table .dotted (← store key value true path inner))
    | some (.table .implied inner) => do
      return replace members part (.table .implied (← store key value false path inner))
    | some (.tables items) => do
      return replace members part (.tables (← changeLast (store key value false path) items))
    | some _ => none

/-- Changes the table that a header's path leads to. Tables on the way are made as needed. -/
def within (change : Members → Option Members) : List String → Members → Option Members
  | [], members => change members
  | part :: path, members =>
    match member? members part with
    | none => do return members ++ [(part, .table .implied (← within change path []))]
    | some (.table .inline _) => none
    | some (.table origin inner) => do
      return replace members part (.table origin (← within change path inner))
    | some (.tables items) => do
      return replace members part (.tables (← changeLast (within change path) items))
    | some _ => none

/-- Opens the table of a header. Only a table that was merely on the way to another may be there. -/
def openTable (key : String) (members : Members) : Option Members :=
  match member? members key with
  | none => some (members ++ [(key, .table .header [])])
  | some (.table .implied inner) => some (replace members key (.table .header inner))
  | some _ => none

def openNext (key : String) (members : Members) : Option Members :=
  match member? members key with
  | none => some (members ++ [(key, .tables [.table .header []])])
  | some (.tables items) => some (replace members key (.tables (items ++ [.table .header []])))
  | some _ => none

end Toml

end CallChart
