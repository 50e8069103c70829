import CallChart.Text.Visible

/-! Text between double quotes, for messages: quotes, backslashes and the common controls are escaped
by a letter, and every other character without a shape of its own by its code point. -/

namespace CallChart

namespace Text

def codePoint (char : Char) : List Char :=
  '\\' :: 'u' :: '\x7b' :: Nat.toDigits 16 char.toNat ++ ['\x7d']

def quotedChar (char : Char) : List Char :=
  if char = '\x00' then ['\\', '0']
  else if char = '\t' then ['\\', 't']
  else if char = '\r' then ['\\', 'r']
  else if char = '\n' then ['\\', 'n']
  else if char = '\\' then ['\\', '\\']
  else if char = '"' then ['\\', '"']
  else if char < ' ' || char = '\x7f' || shapeless char then codePoint char
  else [char]

def quoted (text : String) : String :=
  "\"" ++ String.ofList (text.toList.flatMap quotedChar) ++ "\""

end Text

end CallChart
