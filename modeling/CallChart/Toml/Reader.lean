import CallChart.Toml.Value

/-! Reading TOML text. A reader takes characters off the front of what remains; there is no result when
the text is unsound. Loops are bounded by the length of the remaining text. -/

namespace CallChart

namespace Toml

abbrev Reader (α : Type) := StateT (List Char) Option α

namespace Reader

def char (expected : Char) : Reader Unit := do
  match ← get with
  | first :: rest => if first = expected then set rest else failure
  | [] => failure

def word : List Char → Reader Unit
  | [] => pure ()
  | first :: rest => do char first; word rest

def takeWhile (test : Char → Bool) : Reader (List Char) := do
  let text ← get
  set (text.dropWhile test)
  return text.takeWhile test

def isBlank (char : Char) : Bool := char = ' ' || char = '\t'

def blanks : Reader Unit := do let _ ← takeWhile isBlank

/-- The characters that may stand in a comment or, apart from its own marks, in a text. -/
def isPlain (char : Char) : Bool := char = '\t' || (' ' ≤ char && char ≠ '\x7f')

def newline : Reader Unit := do
  match ← get with
  | '\n' :: rest => set rest
  | '\r' :: '\n' :: rest => set rest
  | _ => failure

def comment : Reader Unit := do
  match ← get with
  | '#' :: rest => set (rest.dropWhile isPlain)
  | _ => pure ()

def lineEnd : Reader Unit := do
  match ← get with
  | [] => pure ()
  | _ => newline

def trailing : Reader Unit := do
  blanks
  comment
  lineEnd

def gapLoop : Nat → Reader Unit
  | 0 => pure ()
  | fuel + 1 => do
    blanks
    match ← get with
    | '\n' :: _ | '\r' :: _ => do newline; gapLoop fuel
    | '#' :: _ => do comment; newline; gapLoop fuel
    | _ => pure ()

def gap : Reader Unit := do gapLoop ((← get).length + 1)

def digit? (base : Nat) (char : Char) : Option Nat :=
  let value :=
    if '0' ≤ char && char ≤ '9' then char.toNat - '0'.toNat
    else if 'a' ≤ char && char ≤ 'f' then char.toNat - 'a'.toNat + 10
    else if 'A' ≤ char && char ≤ 'F' then char.toNat - 'A'.toNat + 10
    else base
  if value < base then some value else none

def spelled (base : Nat) (digits : List Char) : Nat :=
  digits.foldl (fun number char => number * base + (digit? base char).getD 0) 0

def codePoint (count : Nat) : Reader Char := do
  let text ← get
  let digits := text.take count
  let number := spelled 16 digits
  if digits.length = count && digits.all (fun char => (digit? 16 char).isSome) && number.isValidChar then
    set (text.drop count)
    return Char.ofNat number
  else failure

def escape : Reader Char := do
  match ← get with
  | 'b' :: rest => do set rest; return '\x08'
  | 't' :: rest => do set rest; return '\t'
  | 'n' :: rest => do set rest; return '\n'
  | 'f' :: rest => do set rest; return '\x0c'
  | 'r' :: rest => do set rest; return '\r'
  | '"' :: rest => do set rest; return '"'
  | '\\' :: rest => do set rest; return '\\'
  | 'u' :: rest => do set rest; codePoint 4
  | 'U' :: rest => do set rest; codePoint 8
  | _ => failure

/-- Reads a text on one line up to its closing mark. Between double quotes, escapes are read. -/
def lineText (mark : Char) : Nat → Reader (List Char)
  | 0 => failure
  | fuel + 1 => do
    match ← get with
    | [] => failure
    | first :: rest =>
      if first = mark then do set rest; return []
      else if first = '\\' && mark = '"' then do
        set rest
        let escaped ← escape
        return escaped :: (← lineText mark fuel)
      else if isPlain first then do
        set rest
        return first :: (← lineText mark fuel)
      else failure

def indentLoop : Nat → Reader Unit
  | 0 => pure ()
  | fuel + 1 => do
    blanks
    match ← get with
    | '\n' :: _ | '\r' :: _ => do newline; indentLoop fuel
    | _ => pure ()

/-- Passes a line end that is escaped, with all blanks and line ends after it. -/
def escapedLineEnd : Reader Unit := do
  blanks
  newline
  indentLoop ((← get).length + 1)

/-- Reads a text of several lines up to its closing marks. Up to two marks may stand before the closing
three. Between double quotes, escapes are read. -/
def blockText (mark : Char) : Nat → Reader (List Char)
  | 0 => failure
  | fuel + 1 => do
    let text ← get
    match text with
    | [] => failure
    | first :: rest =>
      if first = mark then do
        let marks := min 5 (text.takeWhile (· = mark)).length
        set (text.drop marks)
        if 3 ≤ marks then return List.replicate (marks - 3) mark
        else return List.replicate marks mark ++ (← blockText mark fuel)
      else if first = '\\' && mark = '"' then do
        set rest
        match rest with
        | next :: _ =>
          if isBlank next || next = '\n' || next = '\r' then do
            escapedLineEnd
            blockText mark fuel
          else do
            let escaped ← escape
            return escaped :: (← blockText mark fuel)
        | [] => failure
      else if first = '\n' || first = '\r' then do
        newline
        return '\n' :: (← blockText mark fuel)
      else if isPlain first then do
        set rest
        return first :: (← blockText mark fuel)
      else failure

def shortString (mark : Char) : Reader String := do
  return String.ofList (← lineText mark ((← get).length + 1))

/-- Reads a text of several lines after its opening marks. A line end right after them is passed. -/
def longString (mark : Char) : Reader String := do
  match ← get with
  | '\n' :: rest => set rest
  | '\r' :: '\n' :: rest => set rest
  | _ => pure ()
  return String.ofList (← blockText mark ((← get).length + 1))

def string (mark : Char) : Reader String := do
  match ← get with
  | second :: third :: rest =>
    if second = mark && third = mark then do set rest; longString mark else shortString mark
  | _ => shortString mark

def isKeyChar (char : Char) : Bool := char.isAlphanum || char = '_' || char = '-'

def keyPart : Reader String := do
  match ← get with
  | '"' :: rest => do set rest; shortString '"'
  | '\x27' :: rest => do set rest; shortString '\x27'
  | _ => do
    let name ← takeWhile isKeyChar
    if name.isEmpty then failure else return String.ofList name

def keyParts : Nat → Reader (List String)
  | 0 => failure
  | fuel + 1 => do
    blanks
    let part ← keyPart
    blanks
    match ← get with
    | '.' :: rest => do
      set rest
      return part :: (← keyParts fuel)
    | _ => return [part]

/-- How deep arrays and tables may nest, and how many parts a key may have. -/
def depthLimit : Nat := 79

def key : Reader (List String × String) := do
  let parts ← keyParts depthLimit
  match parts.getLast? with
  | some last => return (parts.dropLast, last)
  | none => failure

/-- Reads digits of a base, in which single underscores may stand between two digits. -/
def digits (base : Nat) : Nat → Reader (List Char)
  | 0 => failure
  | fuel + 1 => do
    match ← get with
    | first :: rest =>
      if (digit? base first).isSome then do
        set rest
        match rest with
        | '_' :: more => do
          set more
          return first :: (← digits base fuel)
        | next :: _ =>
          if (digit? base next).isSome then return first :: (← digits base fuel) else return [first]
        | [] => return [first]
      else failure
    | [] => failure

def someDigits (base : Nat) : Reader (List Char) := do digits base ((← get).length + 1)

/-- Reads the digits of a decimal number, in which a zero stands only alone. -/
def wholeDigits : Reader (List Char) := do
  match ← get with
  | '0' :: rest => do set rest; return ['0']
  | _ => someDigits 10

def integer (value : Int) : Reader Item :=
  if -9223372036854775808 ≤ value && value ≤ 9223372036854775807 then return .integer value else failure

def exponent? : Reader (Option Int) := do
  match ← get with
  | 'e' :: rest | 'E' :: rest => do
    let negative ← match rest with
      | '+' :: more => do set more; pure false
      | '-' :: more => do set more; pure true
      | _ => do set rest; pure false
    let size : Int := spelled 10 (← someDigits 10)
    return some (if negative then -size else size)
  | _ => return none

def fraction? : Reader (Option (List Char)) := do
  match ← get with
  | '.' :: rest => do
    set rest
    return some (← someDigits 10)
  | _ => return none

/-- Whether `digits * 10 ^ exponent` rounds to more than any double-precision number. -/
def tooLarge (digits : List Char) (exponent : Int) : Bool :=
  let significand := spelled 10 digits
  let size : Int := (Nat.toDigits 10 significand).length + exponent
  if significand = 0 || size < 300 then false
  else if 320 < size then true
  else (Nat.pow 2 1024 - Nat.pow 2 970) * Nat.pow 10 (-exponent).toNat ≤ significand * Nat.pow 10 exponent.toNat

def decimal (negative : Bool) : Reader Item := do
  let whole ← wholeDigits
  let fraction ← fraction?
  let exponent ← exponent?
  if fraction.isNone && exponent.isNone then
    let size : Int := spelled 10 whole
    integer (if negative then -size else size)
  else
    let fraction := fraction.getD []
    if !negative && tooLarge (whole ++ fraction) (exponent.getD 0 - fraction.length) then failure
    else return .float

def based (base : Nat) : Reader Item := do integer (spelled base (← someDigits base))

def signed (negative : Bool) : Reader Item := do
  match ← get with
  | 'i' :: rest => do set rest; word "nf".toList; return .float
  | 'n' :: rest => do set rest; word "an".toList; return .float
  | _ => decimal negative

def bounded (count low high : Nat) : Reader Nat := do
  let text ← get
  let digits := text.take count
  let number := spelled 10 digits
  if digits.length = count && digits.all Char.isDigit && low ≤ number && number ≤ high then
    set (text.drop count)
    return number
  else failure

def daysOfMonth (year month : Nat) : Nat :=
  let leap := year % 4 = 0 && (year % 100 ≠ 0 || year % 400 = 0)
  match month with
  | 2 => if leap then 29 else 28
  | 4 | 6 | 9 | 11 => 30
  | _ => 31

def time : Reader Unit := do
  let _ ← bounded 2 0 23
  char ':'
  let _ ← bounded 2 0 59
  char ':'
  let _ ← bounded 2 0 60
  match ← get with
  | '.' :: next :: rest => if next.isDigit then set (rest.dropWhile Char.isDigit) else pure ()
  | _ => pure ()

def offset : Reader Unit := do
  match ← get with
  | 'Z' :: rest | 'z' :: rest => set rest
  | '+' :: rest | '-' :: rest => do
    set rest
    let _ ← bounded 2 0 23
    char ':'
    let _ ← bounded 2 0 59
  | _ => pure ()

def timeAhead : List Char → Bool
  | first :: second :: ':' :: _ => first.isDigit && second.isDigit
  | _ => false

def dateAhead (text : List Char) : Bool :=
  (text.take 4).all Char.isDigit && (text.drop 4).head? = some '-'

def date : Reader Item := do
  let year ← bounded 4 0 9999
  char '-'
  let month ← bounded 2 1 12
  char '-'
  let _ ← bounded 2 1 (daysOfMonth year month)
  match ← get with
  | 'T' :: rest | 't' :: rest | ' ' :: rest =>
    if timeAhead rest then do set rest; time; offset
  | _ => pure ()
  return .date

def numeric : Reader Item := do
  let text ← get
  if dateAhead text then date
  else if timeAhead text then do time; return .date
  else
    match text with
    | '+' :: rest => do set rest; signed false
    | '-' :: rest => do set rest; signed true
    | '0' :: 'x' :: rest => do set rest; based 16
    | '0' :: 'o' :: rest => do set rest; based 8
    | '0' :: 'b' :: rest => do set rest; based 2
    | _ => decimal false

def arrayItems (item : Reader Item) : Nat → Reader (List Item)
  | 0 => failure
  | fuel + 1 => do
    gap
    match ← get with
    | ']' :: rest => do set rest; return []
    | _ => do
      let first ← item
      gap
      match ← get with
      | ',' :: rest => do
        set rest
        return first :: (← arrayItems item fuel)
      | ']' :: rest => do set rest; return [first]
      | _ => failure

def inlineMembers (item : Reader Item) : Nat → Members → Reader Members
  | 0, _ => failure
  | fuel + 1, members => do
    let (path, name) ← key
    char '='
    blanks
    let value ← item
    blanks
    match store name value true path members with
    | none => failure
    | some members =>
      match ← get with
      | ',' :: rest => do
        set rest
        inlineMembers item fuel members
      | '}' :: rest => do set rest; return members
      | _ => failure

def inlineTable (item : Reader Item) : Reader Item := do
  blanks
  match ← get with
  | '}' :: rest => do set rest; return .table .inline []
  | text => return .table .inline (← inlineMembers item (text.length + 1) [])

def valueWith (inner : Reader Item) : Reader Item := do
  match ← get with
  | '"' :: rest => do set rest; return .string (← string '"')
  | '\x27' :: rest => do set rest; return .string (← string '\x27')
  | '[' :: rest => do set rest; return .array (← arrayItems inner (rest.length + 1))
  | '{' :: rest => do set rest; inlineTable inner
  | 't' :: rest => do set rest; word "rue".toList; return .boolean true
  | 'f' :: rest => do set rest; word "alse".toList; return .boolean false
  | 'i' :: _ | 'n' :: _ => signed false
  | _ => numeric

def value : Nat → Reader Item
  | 0 => do
    match ← get with
    | '[' :: _ | '{' :: _ => failure
    | _ => valueWith failure
  | depth + 1 => valueWith (value depth)

/-- A document as far as it is read: its members, and the header that members belong to. -/
structure Draft where
  members : Members := []
  header : List String := []

def header (draft : Draft) : Reader Draft := do
  match ← get with
  | '[' :: rest => do
    set rest
    let (path, name) ← key
    char ']'
    char ']'
    trailing
    match within (openNext name) path draft.members with
    | some members => return { members, header := path ++ [name] }
    | none => failure
  | _ => do
    let (path, name) ← key
    char ']'
    trailing
    match within (openTable name) path draft.members with
    | some members => return { members, header := path ++ [name] }
    | none => failure

def member (draft : Draft) : Reader Draft := do
  let (path, name) ← key
  char '='
  blanks
  let item ← value depthLimit
  trailing
  match within (store name item true path) draft.header draft.members with
  | some members => return { draft with members }
  | none => failure

def lines : Nat → Draft → Reader Draft
  | 0, _ => failure
  | fuel + 1, draft => do
    blanks
    match ← get with
    | [] => return draft
    | '#' :: _ => do comment; lineEnd; lines fuel draft
    | '\n' :: _ | '\r' :: _ => do newline; lines fuel draft
    | '[' :: rest => do
      set rest
      lines fuel (← header draft)
    | _ => do lines fuel (← member draft)

/-- Reads a document. A byte-order mark at its start is passed. -/
def document : Reader Members := do
  match ← get with
  | '\ufeff' :: rest => set rest
  | _ => pure ()
  return (← lines ((← get).length + 1) {}).members

end Reader

def parse? (text : String) : Option Members := (Reader.document.run text.toList).map Prod.fst

end Toml

end CallChart
