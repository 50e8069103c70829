import CallChart.Text.Quoted

/-! Text as a log shows it: characters that could steer a terminal are written as escapes, all others
as they are. An entry of a log is one line, which can be cut at a mark. -/

namespace CallChart

namespace Text

def hexPair (char : Char) : List Char :=
  '\\' :: 'x' :: Nat.digitChar (char.toNat / 16) :: [Nat.digitChar (char.toNat % 16)]

def loggedChar (char : Char) : List Char :=
  if ['\x07', '\x08', '\x0c', '\x1b', '\x7f'].contains char then hexPair char
  else if '\x80' ≤ char && char ≤ '\x9f' then codePoint char
  else [char]

def logged (text : String) : String := String.ofList (text.toList.flatMap loggedChar)

def withoutReturn (line : List Char) : List Char :=
  match line.getLast? with
  | some '\r' => line.dropLast
  | _ => line

/-- The first line of a text. A line feed ends it, or the text does, with or without a carriage return. -/
def firstLine (text : String) : String := String.ofList (withoutReturn (text.toList.takeWhile (· ≠ '\n')))

def before (mark : List Char) : List Char → List Char
  | [] => []
  | char :: rest => if mark.isPrefixOf (char :: rest) then [] else char :: before mark rest

/-- The part of a text up to the first place where a mark stands, with the mark. -/
def through (mark text : List Char) : List Char := text.take ((before mark text).length + mark.length)

end Text

end CallChart
