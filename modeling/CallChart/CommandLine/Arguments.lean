import CallChart.Graph.Node

/-! The arguments of the command line. Options that concern every command may stand before or after
the command's name. -/

namespace CallChart

namespace CommandLine

inductive Opt where
  | verbose
  | config
  | help
  | version
  | input
  /-- A file to read, of which there may be several. -/
  | inputs
  | output
  | format
  | line
  | socket
deriving DecidableEq, Repr

namespace Opt

def long : Opt → String
  | verbose => "verbose"
  | config => "config"
  | help => "help"
  | version => "version"
  | input | inputs => "input"
  | output => "output"
  | format => "format"
  | line => "line"
  | socket => "port"

def short? : Opt → Option Char
  | verbose => some 'v'
  | config => none
  | help => some 'h'
  | version => some 'V'
  | input | inputs => some 'i'
  | output => some 'o'
  | format => some 'f'
  | line => some 'l'
  | socket => some 'p'

def valued : Opt → Bool
  | verbose | help | version => false
  | config | input | inputs | output | format | line | socket => true

end Opt

inductive Halt where
  | misuse
  | help
  | version
deriving DecidableEq, Repr

abbrev Given := List (Opt × String)

/-- The number that decimal digits spell, within a limit. A plus sign may stand before it. -/
def number? (limit : Nat) (text : String) : Option Nat :=
  let digits := match text.toList with
    | '+' :: rest => rest
    | digits => digits
  let number := digits.foldl (fun number digit => number * 10 + (digit.toNat - '0'.toNat)) 0
  if !digits.isEmpty && digits.all Char.isDigit && number ≤ limit then some number else none

/-- The socket that a text names. A minus sign may stand before zero. -/
def socket? (text : String) : Option Nat :=
  match text.toList with
  | '-' :: rest =>
    if rest.head? = some '+' then none else (number? 0 (String.ofList rest))
  | _ => number? 65535 text

def maxLine : Nat := 18446744073709551615

def suits (option : Opt) (value : String) : Bool :=
  match option with
  | .config => value ≠ ""
  | .line => (number? maxLine value).isSome
  | .socket => (socket? value).isSome
  | _ => true

/-- Notes an option. Only that for several inputs may be given more than once. -/
def give (given : Given) (option : Opt) (value : String) : Except Halt Given :=
  if option = .help then .error .help
  else if option = .version then .error .version
  else if option ≠ .inputs && given.any (fun other => other.1 = option) then .error .misuse
  else if suits option value then .ok (given ++ [(option, value)])
  else .error .misuse

/-- Reads short options that share a dash. The last may have its value right after it; one that lacks its
value is handed back. -/
def cluster (allowed : List Opt) : List Char → Given → Except Halt (Given × Option Opt)
  | [], given => .ok (given, none)
  | letter :: more, given =>
    match allowed.find? (fun option => option.short? = some letter) with
    | none => .error .misuse
    | some option =>
      if !option.valued then do
        cluster allowed more (← give given option "")
      else
        match more with
        | [] => .ok (given, some option)
        | '=' :: value => do return (← give given option (String.ofList value), none)
        | value => do return (← give given option (String.ofList value), none)

/-- Reads a long option after its dashes. One that lacks its value is handed back. -/
def longOption (allowed : List Opt) (text : String) (given : Given) : Except Halt (Given × Option Opt) :=
  let name := text.toList.takeWhile (· ≠ '=')
  let rest := text.toList.drop name.length
  match allowed.find? (fun option => option.long = String.ofList name) with
  | none => .error .misuse
  | some option =>
    match option.valued, rest with
    | true, [] => .ok (given, some option)
    | true, _ :: value => do return (← give given option (String.ofList value), none)
    | false, [] => do return (← give given option "", none)
    | false, _ :: _ => .error .misuse

def isOption (argument : String) : Bool := argument.startsWith "-" && argument ≠ "-"

def optionIn (allowed : List Opt) (argument : String) (given : Given) : Except Halt (Given × Option Opt) :=
  if argument.startsWith "--" then longOption allowed (String.ofList (argument.toList.drop 2)) given
  else cluster allowed (argument.toList.drop 1) given

/-- Reads options up to the first argument that is none. After two dashes nothing may come. -/
def options (allowed : List Opt) : List String → Given → Except Halt (Given × List String)
  | [], given => .ok (given, [])
  | argument :: rest, given =>
    if argument = "--" then
      if rest = [] then .ok (given, []) else .error .misuse
    else if isOption argument then
      match optionIn allowed argument given with
      | .error halt => .error halt
      | .ok (given, none) => options allowed rest given
      | .ok (given, some option) =>
        match rest with
        | [] => .error .misuse
        | value :: rest =>
          if isOption value then .error .misuse
          else
            match give given option value with
            | .error halt => .error halt
            | .ok given => options allowed rest given
    else .ok (given, argument :: rest)

inductive Command where
  | render (inputs : List String) (output format : String)
  | callers (input : String) (line : Line)
  | serve (socket : Nat)
deriving DecidableEq

structure Invocation where
  command : Command
  config : Option String
  verbose : Bool
deriving DecidableEq

def valueOf? (given : Given) (option : Opt) : Option String :=
  (given.find? (fun other => other.1 = option)).map Prod.snd

def commonOptions : List Opt := [.verbose, .config, .help]

def optionsOf? : String → Option (List Opt)
  | "render" => some (commonOptions ++ [.inputs, .output, .format])
  | "callers" => some (commonOptions ++ [.input, .line])
  | "serve" => some (commonOptions ++ [.socket])
  | _ => none

def commandOf? (name : String) (given : Given) : Option Command :=
  match name with
  | "render" => do
    let inputs := (given.filter (fun other => other.1 = .inputs)).map Prod.snd
    let output ← valueOf? given .output
    if inputs.isEmpty then none
    else return .render inputs output ((valueOf? given .format).getD "markdown")
  | "callers" => do
    let input ← valueOf? given .input
    let line ← (valueOf? given .line).bind (number? maxLine)
    return .callers input line.toUInt64
  | "serve" => return .serve (((valueOf? given .socket).bind socket?).getD 4599)
  | _ => none

/-- Help on commands: each name must be known, and commands have none below them. -/
def helpOn : List String → Halt
  | [] => .help
  | [name] => if (optionsOf? name).isSome || name = "help" then .help else .misuse
  | _ => .misuse

def parse (arguments : List String) : Except Halt Invocation := do
  let (outer, rest) ← options (.version :: commonOptions) arguments []
  match rest with
  | [] => throw .misuse
  | "help" :: names => throw (helpOn names)
  | name :: rest =>
    match optionsOf? name with
    | none => throw .misuse
    | some allowed =>
      let (inner, rest) ← options allowed rest []
      if rest ≠ [] then throw .misuse
      match commandOf? name inner with
      | none => throw .misuse
      | some command =>
        return {
          command
          config := valueOf? inner .config <|> valueOf? outer .config
          verbose := (valueOf? inner .verbose <|> valueOf? outer .verbose).isSome }

end CommandLine

end CallChart
