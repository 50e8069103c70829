import CallChart.Json.Reader
import CallChart.Ordered.Map

/-! Decoders give JSON a shape. One decoder reads text as it streams by, so that the first fault in
the text is reported, and takes a value apart, so that the first mismatch in the order of its sorted
members is. -/

namespace CallChart

namespace Json

/-- How to get data of one shape from text and from values. -/
structure Decoder (α : Type) where
  read : Reader α
  ofJson : Json → Except Mismatch α

namespace Decoder

def map {α β : Type} (change : α → β) (decoder : Decoder α) : Decoder β where
  read := change <$> decoder.read
  ofJson json := change <$> decoder.ofJson json

/-- Any value but null, which stands for nothing. -/
def optional (depth : Nat) : Decoder (Option Json) where
  read := do
    match ← Reader.peek with
    | some 'n' => do Reader.advance; Reader.word "ull".toList; return none
    | _ => return some (← Reader.value depth)
  ofJson
    | .null => .ok none
    | json => .ok (some json)

def string : Decoder String where
  read := Reader.opened '"' "a string" Reader.string
  ofJson
    | .string value => .ok value
    | json => .error (.wrongType json.found "a string")

def naturalOf : Number → Except Mismatch UInt64
  | .natural value => .ok value
  | .negative value => .error (.wrongValue (.number (.negative value)) "usize")
  | .rounded value => .error (.wrongType (.number (.rounded value)) "usize")

def readNatural (positive : Bool) : Reader UInt64 := do
  match naturalOf (← Reader.number positive) with
  | .ok value => return value
  | .error mismatch => throw (.mismatch mismatch)

def natural : Decoder UInt64 where
  read := do
    match ← Reader.peek with
    | some '-' => do Reader.advance; readNatural false
    | some char => if char.isDigit then readNatural true else Reader.unexpected "usize"
    | none => Reader.unexpected "usize"
  ofJson
    | .number value => naturalOf value
    | json => .error (.wrongType json.found "usize")

def list {α : Type} (item : Decoder α) : Decoder (List α) where
  read := Reader.opened '[' "a sequence" (Reader.items item.read)
  ofJson
    | .array items => items.mapM item.ofJson
    | json => .error (.wrongType json.found "a sequence")

/-- An object with any names. A repeated name keeps its place and takes the later value. -/
def table {α : Type} (item : Decoder α) : Decoder (OrderedMap String α) where
  read := Reader.opened '{' "a map" <| Reader.members Reader.string (fun name table => do
    Reader.colon
    return table.insert name (← item.read)) OrderedMap.empty
  ofJson
    | .object members =>
      members.foldlM (fun table (name, json) => do return table.insert name (← item.ofJson json))
        OrderedMap.empty
    | json => .error (.wrongType json.found "a map")

def pick {α : Type} (options : List (String × α)) (name : String) : Except Mismatch α :=
  match options.find? (fun option => option.1 = name) with
  | some option => .ok option.2
  | none => .error (.unknownVariant name (options.map Prod.fst))

def readPick {α : Type} (options : List (String × α)) (name : String) : Reader α :=
  match pick options name with
  | .ok value => return value
  | .error mismatch => throw (.mismatch mismatch)

def unit : Decoder Unit where
  read := Reader.opened 'n' "unit" (Reader.word "ull".toList)
  ofJson
    | .null => .ok ()
    | json => .error (.wrongType json.found "unit")

def readTagged {α : Type} (options : List (String × α)) : Reader α := do
  Reader.mark '"'
  let value ← readPick options (← Reader.string)
  Reader.colon
  unit.read
  Reader.mark '}'
  return value

/-- One of several named options, given by its name, or as an object whose only member has that name
and is null. -/
def oneOf {α : Type} (options : List (String × α)) : Decoder α where
  read := do
    match ← Reader.peek with
    | some '"' => do Reader.advance; readPick options (← Reader.string)
    | some '{' => do Reader.advance; readTagged options
    | some _ => throw .malformed
    | none => throw .cutShort
  ofJson
    | .string name => pick options name
    | .object [(name, payload)] => do
      let value ← pick options name
      unit.ofJson payload
      return value
    | .object _ => .error (.wrongValue .map "map with a single key")
    | json => .error (.wrongType json.found "string or map")

/-- A field of a record, decoded into a change of the record's draft. -/
structure Field (δ : Type) where
  name : String
  decoder : Decoder (δ → δ)
  filled : δ → Bool
  /-- Whether a record given as a list must have the field. -/
  listed : Bool

/-- A record: its name, its fields in order, and how a draft becomes the record, unless a field is
missing. -/
structure Record (δ α : Type) where
  name : String
  fields : List (Field δ)
  draft : δ
  finish : δ → Except Mismatch α

namespace Record

variable {δ α : Type}

def title (record : Record δ α) : String := "struct " ++ record.name

def size (record : Record δ α) : String :=
  let count := record.fields.length
  record.title ++ " with " ++ count.repr ++ (if count = 1 then " element" else " elements")

def field? (record : Record δ α) (name : String) : Option (Field δ) :=
  record.fields.find? (fun field => field.name = name)

/-- Reads a member of a record. Members with other names are passed over. -/
def readMember (record : Record δ α) (name : String) (draft : δ) : Reader δ := do
  match record.field? name with
  | none => do
    Reader.colon
    Reader.skip
    return draft
  | some field =>
    if field.filled draft then throw (.mismatch (.duplicateField name))
    else
      Reader.colon
      return (← field.decoder.read) draft

def readListed (record : Record δ α) : List (Field δ) → Nat → Bool → δ → Reader δ
  | [], _, _, draft => return draft
  | field :: rest, index, first, draft => do
    if ← Reader.moreItems first then
      let change ← field.decoder.read
      record.readListed rest (index + 1) false (change draft)
    else if field.listed then throw (.mismatch (.wrongLength index record.size))
    else record.readListed rest (index + 1) first draft

def readFinish (record : Record δ α) (draft : δ) : Reader α :=
  match record.finish draft with
  | .ok value => return value
  | .error mismatch => throw (.mismatch mismatch)

def read (record : Record δ α) : Reader α := do
  match ← Reader.peek with
  | some '{' => do
    Reader.advance
    let draft ← Reader.members Reader.string record.readMember record.draft
    record.readFinish draft
  | some '[' => do
    Reader.advance
    let draft ← record.readListed record.fields 0 true record.draft
    let value ← record.readFinish draft
    Reader.mark ']'
    return value
  | _ => Reader.unexpected record.title

def takeMember (record : Record δ α) (draft : δ) (member : String × Json) : Except Mismatch δ :=
  match record.field? member.1 with
  | none => .ok draft
  | some field =>
    if field.filled draft then .error (.duplicateField member.1)
    else do return (← field.decoder.ofJson member.2) draft

def takeListed (record : Record δ α) : List (Field δ) → Nat → List Json → δ → Except Mismatch δ
  | [], index, rest, draft =>
    if rest.isEmpty then .ok draft
    else .error (.wrongLength (index + rest.length) "fewer elements in array")
  | field :: fields, index, [], draft =>
    if field.listed then .error (.wrongLength index record.size)
    else record.takeListed fields (index + 1) [] draft
  | field :: fields, index, json :: rest, draft => do
    let change ← field.decoder.ofJson json
    record.takeListed fields (index + 1) rest (change draft)

def ofJson (record : Record δ α) : Json → Except Mismatch α
  | .object members => do record.finish (← members.foldlM record.takeMember record.draft)
  | .array items => do record.finish (← record.takeListed record.fields 0 items record.draft)
  | json => .error (.wrongType json.found record.title)

end Record

/-- A record, given as an object or as the list of its fields. -/
def record {δ α : Type} (record : Record δ α) : Decoder α where
  read := record.read
  ofJson := record.ofJson

end Decoder

end Json

end CallChart
