import FleetCache.Fault
import FleetCache.Text.Digit
/-!
Command line arguments: a command, possibly a query, and options with a value each. The name of an
option may be cut short as long as only one option has that start, a value may follow an equals sign, and
behind two hyphens nothing is an option any more. Two hyphens written as the value of an option leave it
without one. The query goes with the command: once an option has come between them, no query is taken.
-/
set_option autoImplicit false

namespace FleetCache.CommandLine

open FleetCache.Text

inductive Command where
  | refresh
  | serve
  | findImages
  deriving DecidableEq

def Command.name : Command → String
  | .refresh => "refresh"
  | .serve => "serve"
  | .findImages => "find-images"

def Command.ofName? (s : String) : Option Command :=
  [Command.refresh, .serve, .findImages].find? (fun c => c.name == s)

inductive Setting where
  | accounts
  | regions
  | output
  | source
  | account
  | region
  deriving DecidableEq

inductive Flag where
  | help
  | set (setting : Setting)
  deriving DecidableEq

def spellings : List (String × Flag) :=
  [("-h", .help), ("--help", .help), ("--accounts", .set .accounts), ("--regions", .set .regions),
    ("--output", .set .output), ("-o", .set .output), ("--from", .set .source),
    ("--account", .set .account), ("--region", .set .region)]

/-- Arguments as they were given. An option may have been given without a value. -/
structure Arguments where
  command : Command
  query : Option String
  options : List (Setting × Option String)
  deriving DecidableEq

def Arguments.option? (arguments : Arguments) (setting : Setting) : Option String :=
  (arguments.options.reverse.lookup setting).join

/-- An option as a value: null when it was not given, and an empty list without a value. -/
def Arguments.optionValue (arguments : Arguments) (setting : Setting) : Value :=
  match arguments.options.reverse.lookup setting with
  | none => .null
  | some none => .list []
  | some (some s) => .str s

/-- Why arguments are not taken: help was asked for, or they make no sense. -/
inductive Rejection where
  | help
  | usage
  deriving DecidableEq

def Rejection.status : Rejection → Nat
  | .help => 0
  | .usage => 2

/-- What is written in one argument with an option: nothing, a text behind a long option and an equals
sign, or a text behind a short option. -/
inductive Attached where
  | nothing
  | equals (text : List Char)
  | direct (text : List Char)
  deriving DecidableEq

inductive Token where
  | word (s : String)
  | divider
  | flag (flag : Flag) (attached : Attached)
  | unknown
  deriving DecidableEq

namespace Token

def cutValue (text : List Char) : List Char × Attached :=
  if text.contains '=' then
    let (name, v) := cut '=' text
    (name, .equals v)
  else (text, .nothing)

def longMatches (text : List Char) : List Token :=
  let (start, v) := cutValue text
  (spellings.filter (fun (s, _) => start.isPrefixOf s.toList)).map (fun (_, f) => flag f v)

/-- The options that a short option may mean: itself with a value right behind it, or the start of a
longer one. -/
def shortMatches (text : List Char) : List Token :=
  spellings.filterMap (fun (s, f) =>
    if s.toList = text.take 2 then some (flag f (.direct (text.drop 2)))
    else if text.isPrefixOf s.toList then some (flag f .nothing)
    else none)

def isNegativeNumber (text : List Char) : Bool :=
  match dropFinalNewline text with
  | '-' :: body =>
    let (whole, rest) := (body.takeWhile isDigit, body.dropWhile isDigit)
    match rest with
    | [] => !whole.isEmpty
    | '.' :: fraction => !fraction.isEmpty && fraction.all isDigit
    | _ => false
  | _ => false

def guess (s : String) (text : List Char) : Except Rejection Token :=
  let (name, v) := cutValue text
  match spellings.lookup (String.ofList name), v with
  | some f, .equals v => .ok (flag f (if name.length = 2 then .direct v else .equals v))
  | some f, v => .ok (flag f v)
  | none, _ =>
    let found := if "--".toList.isPrefixOf text then longMatches text else shortMatches text
    match found with
    | [token] => .ok token
    | [] => .ok (if isNegativeNumber text || text.contains ' ' then word s else unknown)
    | _ => .error .usage

def ofString (s : String) : Except Rejection Token :=
  match s.toList with
  | '-' :: c :: rest =>
    match spellings.lookup s with
    | some f => .ok (flag f .nothing)
    | none => guess s ('-' :: c :: rest)
  | _ => .ok (word s)

/-- The tokens of arguments; what comes behind the divider is a word. -/
def ofStrings : List String → Except Rejection (List Token)
  | [] => .ok []
  | "--" :: rest => .ok (divider :: rest.map word)
  | s :: rest => do
    let token ← ofString s
    return token :: (← ofStrings rest)

def isPlain : Token → Bool
  | word _ | divider => true
  | _ => false

end Token

/-- The arguments taken so far. The query is settled together with the command, even when there is none;
left over are words for which there was no place. -/
structure Taken where
  command : Option Command
  query : Option String
  options : List (Setting × Option String)
  leftOver : Bool

def takeDivider : List Token → List String × List Token
  | .divider :: rest => (["--"], rest)
  | tokens => ([], tokens)

def takeWord : List Token → List String × List Token
  | .word s :: rest => ([s], rest)
  | tokens => ([], tokens)

def takeQuery (taken : Taken) (tokens : List Token) : Taken × List Token :=
  let (before, tokens) := takeDivider tokens
  let (found, tokens) := takeWord tokens
  let (after, tokens) := takeDivider tokens
  let words := (before ++ found ++ after).erase "--"
  ({ taken with query := words.head? }, tokens)

def takeWords (taken : Taken) (tokens : List Token) : Except Rejection (Taken × List Token) :=
  if taken.command.isSome then .ok (taken, tokens)
  else
    let (_, behind) := takeDivider tokens
    match takeWord behind with
    | ([s], rest) =>
      match Command.ofName? s with
      | none => .error .usage
      | some c => .ok (takeQuery { taken with command := some c } (takeDivider rest).2)
    | _ => .ok (taken, tokens)

/-- What comes of short options written behind the one for help: help, unless one of them is no option or
lacks its value. -/
def takeCluster (nextIsWord : Bool) : List Char → Rejection
  | [] => .help
  | c :: rest =>
    match spellings.lookup (String.ofList ['-', c]) with
    | none => .usage
    | some .help => takeCluster nextIsWord rest
    | some (.set _) => if rest.isEmpty && !nextIsWord then .usage else .help

def optionText (s : String) : Option String :=
  if s = "--" then none else some s

def nextWord? : List Token → Option String
  | .word s :: _ => some s
  | _ => none

def takeFlag (taken : Taken) (flag : Flag) (attached : Attached) (rest : List Token) :
    Except Rejection (Taken × List Token) :=
  let give := fun setting (text : String) =>
    { taken with options := taken.options ++ [(setting, optionText text)] }
  match flag, attached with
  | .help, .nothing => .error .help
  | .help, .equals _ | .help, .direct [] => .error .usage
  | .help, .direct text => .error (takeCluster (nextWord? rest).isSome text)
  | .set setting, .equals text | .set setting, .direct text =>
    .ok (give setting (String.ofList text), rest)
  | .set setting, .nothing =>
    match nextWord? rest with
    | some s => .ok (give setting s, rest.tail)
    | none => .error .usage

/-- Goes through the tokens; every round takes at least one of them. -/
def takeAll : Nat → Taken → List Token → Except Rejection Taken
  | 0, taken, _ => .ok taken
  | fuel + 1, taken, tokens =>
    match tokens with
    | .flag flag attached :: rest => do
      let (taken, rest) ← takeFlag taken flag attached rest
      takeAll fuel taken rest
    | .unknown :: rest => takeAll fuel { taken with leftOver := true } rest
    | [] => .ok taken
    | _ => do
      let (taken, rest) ← takeWords taken tokens
      if rest.length < tokens.length then takeAll fuel taken rest
      else takeAll fuel { taken with leftOver := true } (rest.dropWhile Token.isPlain)

def Arguments.parse (strings : List String) : Except Rejection Arguments := do
  let tokens ← Token.ofStrings strings
  let taken ← takeAll (tokens.length + 1) ⟨none, none, [], false⟩ tokens
  match taken.command, taken.leftOver with
  | some c, false => return ⟨c, taken.query, taken.options⟩
  | _, _ => throw .usage

def Arguments.toValue (arguments : Arguments) : Value :=
  .object [("command", .str arguments.command.name), ("query", .ofOption arguments.query),
    ("accounts", arguments.optionValue .accounts), ("regions", arguments.optionValue .regions),
    ("output", arguments.optionValue .output), ("source", arguments.optionValue .source),
    ("account", arguments.optionValue .account), ("region", arguments.optionValue .region)]

example : (Arguments.parse ["find-images", "ami-1", "--fr", "d", "-oout"]).toOption =
    some ⟨.findImages, some "ami-1", [(.source, some "d"), (.output, some "out")]⟩ := by decide +kernel
example : (Arguments.parse ["serve", "-o--"]).toOption =
    some ⟨.serve, none, [(.output, none)]⟩ := by decide +kernel
example : (Arguments.parse ["refresh", "--reg", "x"]).toOption = none := by decide +kernel
example : (Arguments.parse ["find-images", "--from", "d", "ami-1"]).toOption = none := by decide +kernel

end FleetCache.CommandLine
