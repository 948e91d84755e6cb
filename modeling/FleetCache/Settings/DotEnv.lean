import FleetCache.Text.Blank
/-!
Files of settings. Each line gives a name and, behind an equals sign, a value: plain up to a comment, or
between quotes and then over several lines if need be. Lines that make no sense are skipped. A value may
refer to variables by name in braces behind a dollar sign, with a text to take when there is none.
-/
set_option autoImplicit false

namespace FleetCache.DotEnv

open FleetCache.Text

structure Binding where
  name : String
  value : Option String
  deriving DecidableEq

abbrev Found (α : Type) := Option (α × List Char)

def isLineEnd (c : Char) : Bool :=
  c == '\n' || c == '\r'

def isInlineBlank (c : Char) : Bool :=
  isBlank c && !isLineEnd c

def skipInline (text : List Char) : List Char :=
  text.dropWhile isInlineBlank

def skipLine (text : List Char) : List Char :=
  (text.dropWhile (fun c => !isLineEnd c)).drop 1

def skipExport (text : List Char) : List Char :=
  let word := "export".toList
  let rest := text.drop word.length
  if word.isPrefixOf text && (rest.head?.map isInlineBlank).getD false then skipInline rest else text

/-- The text between quotes, behind the opening one. A backslash keeps what stands behind it, which may be
no line end, from having a meaning of its own. -/
def takeQuoted (quote : Char) : List Char → Found (List Char)
  | [] => none
  | '\\' :: c :: rest =>
    if c = '\n' then none
    else (takeQuoted quote rest).map (fun (inner, after) => ('\\' :: c :: inner, after))
  | c :: rest =>
    if c = quote then some ([], rest)
    else (takeQuoted quote rest).map (fun (inner, after) => (c :: inner, after))

def escapes : List (Char × Char) :=
  [('\\', '\\'), ('\'', '\''), ('"', '"'), ('a', '\x07'), ('b', '\x08'), ('f', '\x0c'), ('n', '\n'),
    ('r', '\r'), ('t', '\t'), ('v', '\x0b')]

def unescape (letters : List Char) : List Char → List Char
  | '\\' :: c :: rest =>
    match (if letters.contains c then escapes.lookup c else none) with
    | some meant => meant :: unescape letters rest
    | none => '\\' :: unescape letters (c :: rest)
  | c :: rest => c :: unescape letters rest
  | [] => []

/-- A plain value without the comment behind it; a comment starts with a number sign behind a blank. -/
def dropComment (blankBefore : Bool) : List Char → List Char
  | [] => []
  | c :: rest =>
    if blankBefore && c == '#' then [] else c :: dropComment (isBlank c) rest

def trimEnd (text : List Char) : List Char :=
  (text.reverse.dropWhile isBlank).reverse

def takeValue (blankBefore : Bool) (text : List Char) : Found (List Char) :=
  match text with
  | '\'' :: rest =>
    (takeQuoted '\'' rest).map (fun (inner, after) => (unescape ['\\', '\''] inner, after))
  | '"' :: rest =>
    (takeQuoted '"' rest).map (fun (inner, after) => (unescape (escapes.map (·.1)) inner, after))
  | _ =>
    let plain := text.takeWhile (fun c => !isLineEnd c)
    some (trimEnd (dropComment blankBefore plain), text.drop plain.length)

def takeName (text : List Char) : Found (Option (List Char)) :=
  let some' := fun (name after : List Char) => if name.isEmpty then none else some (some name, after)
  match text with
  | '#' :: _ => some (none, text)
  | '\'' :: rest =>
    let name := rest.takeWhile (· != '\'')
    match rest.drop name.length with
    | '\'' :: after => some' name after
    | _ => none
  | _ =>
    let name := text.takeWhile (fun c => !(c == '=' || c == '#' || isBlank c))
    some' name (text.drop name.length)

def takeAssigned (text : List Char) : Except (List Char) (Option (List Char) × List Char) :=
  match text with
  | '=' :: rest =>
    let front := skipInline rest
    match takeValue (front.length < rest.length) front with
    | some (v, after) => .ok (some v, after)
    | none => .error front
  | _ => .ok (none, text)

def takeLineEnd (text : List Char) : Except (List Char) (List Char) :=
  let comment := skipInline text
  let text :=
    match comment with
    | '#' :: _ => comment.dropWhile (fun c => !isLineEnd c)
    | _ => text
  match skipInline text with
  | [] => .ok []
  | c :: rest => if isLineEnd c then .ok rest else .error text

def takeLine (text : List Char) : Except (List Char) (Option Binding × List Char) := do
  let text := skipExport text
  match takeName text with
  | none => .error text
  | some (name, after) =>
    let (v, after) ← takeAssigned (skipInline after)
    let rest ← takeLineEnd after
    return (name.map (fun n => ⟨String.ofList n, v.map String.ofList⟩), rest)

/-- The lines of a text; the number of lines is bounded by the length of the text. -/
def takeLines : Nat → List Char → List Binding
  | 0, _ => []
  | fuel + 1, text =>
    match text.dropWhile isBlank with
    | [] => []
    | front =>
      match takeLine front with
      | .ok (binding, rest) => binding.toList ++ takeLines fuel rest
      | .error rest => takeLines fuel (skipLine rest)

def dropMark : List Char → List Char
  | '\ufeff' :: rest => rest
  | text => text

def bindings (text : List Char) : List Binding :=
  takeLines (text.length + 1) (dropMark text)

/-- A reference behind its dollar sign: the name of a variable and the text to take when there is no such
variable. -/
def takeReference (text : List Char) : Found (List Char × List Char) :=
  match text with
  | '\x7b' :: rest =>
    let name := rest.takeWhile (fun c => c != '\x7d' && c != ':')
    match rest.drop name.length with
    | '\x7d' :: after => some ((name, []), after)
    | ':' :: '-' :: more =>
      let other := more.takeWhile (· != '\x7d')
      match more.drop other.length with
      | '\x7d' :: after => some ((name, other), after)
      | _ => none
    | _ => none
  | _ => none

def expand (meaning : String → Option String) : Nat → List Char → List Char
  | 0, text => text
  | _ + 1, [] => []
  | fuel + 1, c :: rest =>
    match (if c = '$' then takeReference rest else none) with
    | some ((name, other), after) =>
      ((meaning (String.ofList name)).map String.toList).getD other ++ expand meaning fuel after
    | none => c :: expand meaning fuel rest

/-- Names in the order of their first line, each with the value of its last line. -/
abbrev Assigned := List (String × Option String)

def assign (name : String) (v : Option String) : Assigned → Assigned
  | [] => [(name, v)]
  | (other, old) :: rest =>
    if other = name then (other, v) :: rest else (other, old) :: assign name v rest

/-- Assigns the value of a line. It may refer to the values of earlier lines, and otherwise to the
environment. -/
def step (environment : List (String × String)) (known : Assigned) (binding : Binding) : Assigned :=
  let meaning := fun name =>
    match known.lookup name with
    | some v => some (v.getD "")
    | none => environment.lookup name
  assign binding.name (binding.value.map (fun s =>
    String.ofList (expand meaning (s.toList.length + 1) s.toList))) known

def values (environment : List (String × String)) (text : List Char) : Assigned :=
  (bindings text).foldl (step environment) []

example : bindings "export A='x y' # z\nB = \"1\\n\"\nC\n".toList =
    [⟨"A", some "x y"⟩, ⟨"B", some "1\n"⟩, ⟨"C", none⟩] := by decide +kernel
example : bindings "A= # x\nB=#x\nD=\"\\\\\" # \"\nC=\"\\\"\n".toList =
    [⟨"A", some ""⟩, ⟨"B", some "#x"⟩, ⟨"D", some "\\"⟩] := by decide +kernel
example : values [("H", "h")] "A=$\x7bH\x7d\nB=$\x7bA\x7d-$\x7bZ:-z\x7d".toList =
    [("A", some "h"), ("B", some "h-z")] := by decide +kernel

end FleetCache.DotEnv
