import CallChart.Json.Value

/-! The text of a JSON value, on one line or indented by two blanks a level. -/

namespace CallChart

namespace Number

def text : Number → String
  | natural value => value.toNat.repr
  | negative value => toString value
  | rounded value => Decimal.text value

end Number

namespace Json

def controlEscape (char : Char) : List Char :=
  ['\\', 'u', '0', '0', Nat.digitChar (char.toNat / 16), Nat.digitChar (char.toNat % 16)]

/-- A character inside a JSON text. Only what must be escaped is. -/
def escapeChar (char : Char) : List Char :=
  if char = '"' then ['\\', '"']
  else if char = '\\' then ['\\', '\\']
  else if char = '\x08' then ['\\', 'b']
  else if char = '\x0c' then ['\\', 'f']
  else if char = '\n' then ['\\', 'n']
  else if char = '\r' then ['\\', 'r']
  else if char = '\t' then ['\\', 't']
  else if char < ' ' then controlEscape char
  else [char]

def quote (text : String) : String :=
  "\"" ++ String.ofList (text.toList.flatMap escapeChar) ++ "\""

mutual

def compact : Json → String
  | .null => "null"
  | .bool true => "true"
  | .bool false => "false"
  | .number value => value.text
  | .string value => quote value
  | .array [] => "[]"
  | .array (first :: rest) => "[" ++ compact first ++ compactItems rest ++ "]"
  | .object [] => "\x7b\x7d"
  | .object ((name, value) :: rest) =>
    "\x7b" ++ quote name ++ ":" ++ compact value ++ compactMembers rest ++ "\x7d"

/-- The texts of the items after the first. -/
def compactItems : List Json → String
  | [] => ""
  | item :: rest => "," ++ compact item ++ compactItems rest

def compactMembers : List (String × Json) → String
  | [] => ""
  | (name, value) :: rest => "," ++ quote name ++ ":" ++ compact value ++ compactMembers rest

end

def newLine (level : Nat) : String := "\n" ++ String.ofList (List.replicate (2 * level) ' ')

mutual

def pretty (level : Nat) : Json → String
  | .null => "null"
  | .bool true => "true"
  | .bool false => "false"
  | .number value => value.text
  | .string value => quote value
  | .array [] => "[]"
  | .array (first :: rest) =>
    "[" ++ newLine (level + 1) ++ pretty (level + 1) first ++ prettyItems (level + 1) rest ++
      newLine level ++ "]"
  | .object [] => "\x7b\x7d"
  | .object ((name, value) :: rest) =>
    "\x7b" ++ newLine (level + 1) ++ quote name ++ ": " ++ pretty (level + 1) value ++
      prettyMembers (level + 1) rest ++ newLine level ++ "\x7d"

def prettyItems (level : Nat) : List Json → String
  | [] => ""
  | item :: rest => "," ++ newLine level ++ pretty level item ++ prettyItems level rest

def prettyMembers (level : Nat) : List (String × Json) → String
  | [] => ""
  | (name, value) :: rest =>
    "," ++ newLine level ++ quote name ++ ": " ++ pretty level value ++ prettyMembers level rest

end

end Json

end CallChart
