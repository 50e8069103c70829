import CallChart.Decimal.Float

/-! JSON values. The members of an object are kept in a list; a value read from text has them sorted
by name, each name once. -/

namespace CallChart

/-- A JSON number, by how precisely it is held. -/
inductive Number where
  | natural (value : UInt64)
  | negative (value : Int)
  /-- Any other number, rounded. -/
  | rounded (value : Float)

inductive Json where
  | null
  | bool (value : Bool)
  | number (value : Number)
  | string (value : String)
  | array (items : List Json)
  | object (members : List (String × Json))

namespace Json

instance : Inhabited Json := ⟨null⟩

def natural (value : UInt64) : Json := .number (.natural value)

def strings (items : List String) : Json := .array (items.map .string)

/-- Stores a member among members sorted by name. A later member replaces an earlier one. -/
def insertMember (name : String) (value : Json) : List (String × Json) → List (String × Json)
  | [] => [(name, value)]
  | first :: rest =>
    if name < first.1 then (name, value) :: first :: rest
    else if name = first.1 then (name, value) :: rest
    else first :: insertMember name value rest

def member? (json : Json) (name : String) : Option Json :=
  match json with
  | .object members => (members.find? (fun member => member.1 = name)).map Prod.snd
  | _ => none

def asString? : Json → Option String
  | .string value => some value
  | _ => none

def asNatural? : Json → Option UInt64
  | .number (.natural value) => some value
  | _ => none

end Json

end CallChart
