import CallChart.Json.Fault

/-! Reading JSON text character by character. A reader takes characters off the front of what
remains of the text; the first fault ends the reading. Loops are bounded by the length of the
remaining text, since each round takes at least one character. -/

namespace CallChart

namespace Json

abbrev Reader (α : Type) := StateT (List Char) (Except Fault) α

namespace Reader

def isBlank (char : Char) : Bool := char = ' ' || char = '\n' || char = '\t' || char = '\r'

/-- Passes blanks and looks at the next character. -/
def peek : Reader (Option Char) := do
  modify (List.dropWhile isBlank)
  return (← get).head?

def advance : Reader Unit := modify List.tail

def word : List Char → Reader Unit
  | [] => pure ()
  | expected :: more => do
    match ← get with
    | [] => throw .cutShort
    | char :: rest =>
      if char = expected then
        set rest
        word more
      else throw .malformed

def digits : Reader (List Char) := do
  let text ← get
  set (text.dropWhile Char.isDigit)
  return text.takeWhile Char.isDigit

def someDigits : Reader (List Char) := do
  match ← get with
  | [] => throw .cutShort
  | char :: _ => if char.isDigit then digits else throw .malformed

/-- Takes the digits of a whole number, in which a zero is not followed by a digit. -/
def wholeDigits : Reader (List Char) := do
  match ← get with
  | '0' :: next :: _ => if next.isDigit then throw .malformed else digits
  | _ => someDigits

def maxNatural : Nat := 18446744073709551615

/-- Appends digits to a number of 64 bits as long as they fit, and gives those that are left. -/
def accumulate (significand : Nat) : List Char → Nat × List Char
  | [] => (significand, [])
  | digit :: rest =>
    let longer := significand * 10 + (digit.toNat - '0'.toNat)
    if longer ≤ maxNatural then accumulate longer rest else (significand, digit :: rest)

def shrink : Nat → Float → Nat → Float
  | 0, value, _ => value
  | fuel + 1, value, places =>
    if places ≤ 308 then value / Float.ofScientific 1 false places
    else if value == 0 then value
    else shrink fuel (value / Float.ofScientific 1 false 308) (places - 308)

/-- The number `significand * 10 ^ exponent`, unless it is too large. -/
def scale? (significand : Nat) (exponent : Int) : Option Float :=
  let value := significand.toUInt64.toFloat
  if exponent < 0 then some (shrink 4 value exponent.natAbs)
  else if exponent ≤ 308 then
    let scaled := value * Float.ofScientific 1 false exponent.natAbs
    if scaled.isInf then none else some scaled
  else if value == 0 then some value
  else none

def rounded (positive : Bool) (significand : Nat) (exponent : Int) : Reader Number :=
  match scale? significand exponent with
  | some value => return .rounded (if positive then value else -value)
  | none => throw .malformed

def maxExponent : Nat := 2147483647

def spelled (digits : List Char) : Nat :=
  digits.foldl (fun number digit => number * 10 + (digit.toNat - '0'.toNat)) 0

def exponentSign : Reader Bool := do
  match ← get with
  | '+' :: rest => do set rest; return true
  | '-' :: rest => do set rest; return false
  | _ => return true

def exponent (positive : Bool) (significand : Nat) (places : Int) : Reader Number := do
  let upward ← exponentSign
  let size := spelled (← someDigits)
  if maxExponent < size then
    if significand ≠ 0 && upward then throw .malformed
    else return .rounded (if positive then 0.0 else -0.0)
  else rounded positive significand (if upward then places + size else places - size)

/-- Reads what may follow the digits of a number that is not held exactly. -/
def roundedTail (positive : Bool) (significand : Nat) (places : Int) : Reader Number := do
  match ← get with
  | 'e' :: rest | 'E' :: rest => do set rest; exponent positive significand places
  | _ => rounded positive significand places

def fraction (positive : Bool) (significand : Nat) (places : Int) : Reader Number := do
  let digits ← someDigits
  let (significand, left) := accumulate significand digits
  roundedTail positive significand (places - (digits.length - left.length : Int))

/-- A whole number with its sign. Zero with a minus sign is rounded, since no integer is that. -/
def whole (positive : Bool) (significand : Nat) : Number :=
  if positive then .natural significand.toUInt64
  else if 0 < significand && significand ≤ 9223372036854775808 then .negative (-(significand : Int))
  else .rounded (-significand.toUInt64.toFloat)

def number (positive : Bool) : Reader Number := do
  let (significand, left) := accumulate 0 (← wholeDigits)
  let places : Int := left.length
  match ← get with
  | '.' :: rest => do set rest; fraction positive significand places
  | 'e' :: rest | 'E' :: rest => do set rest; exponent positive significand places
  | _ => if left.isEmpty then return whole positive significand else rounded positive significand places

def hexDigit? (char : Char) : Option Nat :=
  if '0' ≤ char && char ≤ '9' then some (char.toNat - '0'.toNat)
  else if 'a' ≤ char && char ≤ 'f' then some (char.toNat - 'a'.toNat + 10)
  else if 'A' ≤ char && char ≤ 'F' then some (char.toNat - 'A'.toNat + 10)
  else none

/-- Reads four hexadecimal digits. The text is cut short when fewer than four bytes remain, whatever
they are. -/
def hexFour : Reader Nat := do
  let text ← get
  let first := text.take 4
  match first.mapM hexDigit? with
  | some [a, b, c, d] => do
    set (text.drop 4)
    return ((a * 16 + b) * 16 + c) * 16 + d
  | _ =>
    if (String.ofList first).utf8ByteSize < 4 then throw .cutShort else throw .malformed

def within (expected : Char) : Reader Unit := do
  match ← get with
  | [] => throw .cutShort
  | char :: rest => if char = expected then set rest else throw .malformed

/-- Reads a character given by hexadecimal code units, of which a pair makes one character beyond the
first plane. -/
def unicode : Reader Char := do
  let high ← hexFour
  if 0xdc00 ≤ high && high ≤ 0xdfff then throw .malformed
  else if 0xd800 ≤ high && high ≤ 0xdbff then
    within '\\'
    within 'u'
    let low ← hexFour
    if 0xdc00 ≤ low && low ≤ 0xdfff then
      return Char.ofNat ((high - 0xd800) * 1024 + (low - 0xdc00) + 0x10000)
    else throw .malformed
  else return Char.ofNat high

def escapeLetter? : Char → Option Char
  | '"' => some '"'
  | '\\' => some '\\'
  | '/' => some '/'
  | 'b' => some '\x08'
  | 'f' => some '\x0c'
  | 'n' => some '\n'
  | 'r' => some '\r'
  | 't' => some '\t'
  | _ => none

def stringChar : Reader (Option Char) := do
  match ← get with
  | [] => throw .cutShort
  | '"' :: rest => do set rest; return none
  | '\\' :: [] => throw .cutShort
  | '\\' :: 'u' :: rest => do set rest; return some (← unicode)
  | '\\' :: letter :: rest =>
    match escapeLetter? letter with
    | some char => do set rest; return some char
    | none => throw .malformed
  | char :: rest => if char < ' ' then throw .malformed else do set rest; return some char

def stringChars : Nat → Reader (List Char)
  | 0 => throw .cutShort
  | fuel + 1 => do
    match ← stringChar with
    | none => return []
    | some char => return char :: (← stringChars fuel)

def string : Reader String := do
  return String.ofList (← stringChars ((← get).length + 1))

/-- Passes one character of a string; whether it was the closing quote. Surrogates are not looked at. -/
def skipChar : Reader Bool := do
  match ← get with
  | [] => throw .cutShort
  | '"' :: rest => do set rest; return true
  | '\\' :: [] => throw .cutShort
  | '\\' :: 'u' :: rest => do set rest; let _ ← hexFour; return false
  | '\\' :: letter :: rest =>
    if (escapeLetter? letter).isSome then do set rest; return false else throw .malformed
  | char :: rest => if char < ' ' then throw .malformed else do set rest; return false

def skipChars : Nat → Reader Unit
  | 0 => throw .cutShort
  | fuel + 1 => do if ← skipChar then return () else skipChars fuel

def skipString : Reader Unit := do skipChars ((← get).length + 1)

def skipDigits : Reader Unit := do
  if (← digits).isEmpty then throw .malformed

def skipWhole : Reader Unit := do
  match ← get with
  | '0' :: next :: _ => if next.isDigit then throw .malformed else advance
  | _ => skipDigits

def skipFraction : Reader Unit := do
  match ← get with
  | '.' :: rest => do set rest; skipDigits
  | _ => return ()

def skipExponent : Reader Unit := do
  match ← get with
  | 'e' :: rest | 'E' :: rest => do
    set rest
    let _ ← exponentSign
    skipDigits
  | _ => return ()

/-- Passes a number after its sign. Its size is not looked at. -/
def skipNumber : Reader Unit := do
  skipWhole
  skipFraction
  skipExponent

def mark (expected : Char) : Reader Unit := do
  match ← peek with
  | none => throw .cutShort
  | some char => if char = expected then advance else throw .malformed

def colon : Reader Unit := mark ':'

/-- Whether another item of a list comes; the comma before it is taken. -/
def moreItems (first : Bool) : Reader Bool := do
  match ← peek with
  | none => throw .cutShort
  | some ']' => return false
  | some ',' =>
    if first then return true
    else
      advance
      match ← peek with
      | none => throw .cutShort
      | some ']' => throw .malformed
      | some _ => return true
  | some _ => if first then return true else throw .malformed

/-- Whether another member of an object comes; the comma before it is taken. -/
def moreMembers (first : Bool) : Reader Bool := do
  match ← peek with
  | none => throw .cutShort
  | some '}' => return false
  | some ',' =>
    if first then throw .malformed
    else
      advance
      match ← peek with
      | none => throw .cutShort
      | some '"' => return true
      | some _ => throw .malformed
  | some '"' => if first then return true else throw .malformed
  | some _ => throw .malformed

def itemsLoop {α : Type} (item : Reader α) : Nat → Bool → Reader (List α)
  | 0, _ => throw .malformed
  | fuel + 1, first => do
    if ← moreItems first then
      let head ← item
      return head :: (← itemsLoop item fuel false)
    else
      advance
      return []

def items {α : Type} (item : Reader α) : Reader (List α) := do
  itemsLoop item ((← get).length + 1) true

def membersLoop {κ σ : Type} (key : Reader κ) (member : κ → σ → Reader σ) : Nat → Bool → σ → Reader σ
  | 0, _, _ => throw .malformed
  | fuel + 1, first, state => do
    if ← moreMembers first then
      advance
      let name ← key
      membersLoop key member fuel false (← member name state)
    else
      advance
      return state

def members {κ σ : Type} (key : Reader κ) (member : κ → σ → Reader σ) (state : σ) : Reader σ := do
  membersLoop key member ((← get).length + 1) true state

def skipWith (inner : Reader Unit) : Reader Unit := do
  match ← peek with
  | none => throw .cutShort
  | some 'n' => do advance; word "ull".toList
  | some 't' => do advance; word "rue".toList
  | some 'f' => do advance; word "alse".toList
  | some '-' => do advance; skipNumber
  | some '"' => do advance; skipString
  | some '[' => do advance; let _ ← items inner
  | some '{' => do advance; members skipString (fun _ _ => do colon; inner) ()
  | some char => if char.isDigit then skipNumber else throw .malformed

def skipNested : Nat → Reader Unit
  | 0 => throw .malformed
  | depth + 1 => skipWith (skipNested depth)

def skip : Reader Unit := do skipNested ((← get).length + 1)

/-- Reads a value of any kind, given how to store the members of an object and how to read a value inside
it, unless it may have none. -/
def valueWith (store : String → Json → List (String × Json) → List (String × Json))
    (inner : Option (Reader Json)) : Reader Json := do
  match ← peek with
  | none => throw .cutShort
  | some 'n' => do advance; word "ull".toList; return .null
  | some 't' => do advance; word "rue".toList; return .bool true
  | some 'f' => do advance; word "alse".toList; return .bool false
  | some '-' => do advance; return .number (← number false)
  | some '"' => do advance; return .string (← string)
  | some '[' =>
    match inner with
    | none => throw .malformed
    | some inner => do advance; return .array (← items inner)
  | some '{' =>
    match inner with
    | none => throw .malformed
    | some inner => do
      advance
      return .object (← members string (fun name stored => do
        colon
        return store name (← inner) stored) [])
  | some char => if char.isDigit then return .number (← number true) else throw .malformed

def valueStoring (store : String → Json → List (String × Json) → List (String × Json)) : Nat → Reader Json
  | 0 => valueWith store none
  | depth + 1 => valueWith store (some (valueStoring store depth))

/-- Reads a value in which lists and objects nest no deeper than the given number. -/
def value (depth : Nat) : Reader Json := valueStoring insertMember depth

/-- Says what comes next, as messages put it. A list or an object is not entered. -/
def finding : Reader Found := do
  match ← peek with
  | none => throw .cutShort
  | some 'n' => do advance; word "ull".toList; return .null
  | some 't' => do advance; word "rue".toList; return .bool true
  | some 'f' => do advance; word "alse".toList; return .bool false
  | some '-' => do advance; return .number (← number false)
  | some '"' => do advance; return .string (← string)
  | some '[' => return .sequence
  | some '{' => return .map
  | some char => if char.isDigit then return .number (← number true) else throw .malformed

def unexpected {α : Type} (expected : String) : Reader α := do
  let found ← finding
  throw (.mismatch (.wrongType found expected))

def opened {α : Type} (opening : Char) (expected : String) (reader : Reader α) : Reader α := do
  if (← peek) = some opening then
    advance
    reader
  else unexpected expected

/-- Reads a whole text, after which only blanks may come. -/
def run {α : Type} (reader : Reader α) (text : String) : Except Fault α := do
  let (value, rest) ← StateT.run reader text.toList
  if rest.all isBlank then return value else throw .malformed

end Reader

end Json

end CallChart
