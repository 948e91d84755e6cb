import FleetCache.Value.Access
/-!
Writing values as JSON text on one line: a comma and a colon are followed by a space, and every
character outside printable ASCII is escaped. Moments and sets are no JSON values; they are first
replaced, by their ISO text and a sorted list or by their display text.
-/
set_option autoImplicit false

namespace FleetCache.Json

open FleetCache.Text

def escapeUnit (n : Nat) : List Char :=
  '\\' :: 'u' :: hexDigits 4 n

def escapeChar (c : Char) : List Char :=
  let n := c.toNat
  if c = '"' ∨ c = '\\' then ['\\', c]
  else if c = '\n' then ['\\', 'n']
  else if c = '\r' then ['\\', 'r']
  else if c = '\t' then ['\\', 't']
  else if n = 8 then ['\\', 'b']
  else if n = 12 then ['\\', 'f']
  else if 0x20 ≤ n ∧ n < 0x7F then [c]
  else if n < 0x10000 then escapeUnit n
  else escapeUnit (0xD800 + (n - 0x10000) / 0x400) ++ escapeUnit (0xDC00 + (n - 0x10000) % 0x400)

def renderString (s : String) : List Char :=
  '"' :: s.toList.flatMap escapeChar ++ ['"']

def nameText : Atom → String
  | .null => "null"
  | .bool true => "true"
  | .bool false => "false"
  | a => a.text

/-- The JSON text of an atom; a moment is written as its ISO text. -/
def renderAtom : Atom → List Char
  | .str s => renderString s
  | .time m => renderString m.iso
  | a => (nameText a).toList

mutual
def render : Value → List Char
  | .atom a => renderAtom a
  | .list items => '[' :: joinWith [',', ' '] (renderItems items) ++ [']']
  | .object members => '\x7b' :: joinWith [',', ' '] (renderMembers members) ++ ['\x7d']
  | .set items => '[' :: joinWith [',', ' '] (items.map renderAtom) ++ [']']
termination_by structural v => v

def renderItems : List Value → List (List Char)
  | [] => []
  | v :: rest => render v :: renderItems rest
termination_by structural items => items

def renderMembers : List (Atom × Value) → List (List Char)
  | [] => []
  | member :: rest => renderMember member :: renderMembers rest
termination_by structural members => members

def renderMember : Atom × Value → List Char
  | (name, v) => renderString (nameText name) ++ ':' :: ' ' :: render v
termination_by structural member => member
end

def renderText (v : Value) : String :=
  String.ofList (render v)

mutual
def ordered : Value → Except Fault Value
  | .list items => (orderedItems items).map .list
  | .object members => (orderedMembers members).bind (fun members => (sortMembers members).map .object)
  | v => .ok v
termination_by structural v => v

def orderedItems : List Value → Except Fault (List Value)
  | [] => .ok []
  | v :: rest => do
    let first ← ordered v
    let others ← orderedItems rest
    return first :: others
termination_by structural items => items

def orderedMembers : List (Atom × Value) → Except Fault (List (Atom × Value))
  | [] => .ok []
  | member :: rest => do
    let first ← orderedMember member
    let others ← orderedMembers rest
    return first :: others
termination_by structural members => members

def orderedMember : Atom × Value → Except Fault (Atom × Value)
  | (name, v) => (ordered v).map (fun w => (name, w))
termination_by structural member => member
end

def memberName : Atom → Except Fault Atom
  | .time _ => .error (.wrongType "keys must be str, int, float, bool or None, not datetime.datetime")
  | name => .ok name

mutual
def replaceLeaves (rule : Value → Except Fault Value) : Value → Except Fault Value
  | .list items => (replaceItems rule items).map .list
  | .object members => (replaceMembers rule members).map .object
  | .time m => rule (.time m)
  | .set items => rule (.set items)
  | v => .ok v
termination_by structural v => v

def replaceItems (rule : Value → Except Fault Value) : List Value → Except Fault (List Value)
  | [] => .ok []
  | v :: rest => do
    let first ← replaceLeaves rule v
    let others ← replaceItems rule rest
    return first :: others
termination_by structural items => items

def replaceMembers (rule : Value → Except Fault Value) :
    List (Atom × Value) → Except Fault (List (Atom × Value))
  | [] => .ok []
  | member :: rest => do
    let first ← replaceMember rule member
    let others ← replaceMembers rule rest
    return first :: others
termination_by structural members => members

def replaceMember (rule : Value → Except Fault Value) : Atom × Value → Except Fault (Atom × Value)
  | (name, v) => do
    let name ← memberName name
    let w ← replaceLeaves rule v
    return (name, w)
termination_by structural member => member
end

def element : Value → Value
  | .time m => .str m.iso
  | v => v

/-- The JSON value for a moment, its ISO text, or for a set, its elements in order; no other value has
one by this rule. -/
def serial : Value → Except Fault Value
  | .time m => .ok (.str m.iso)
  | .set items => (sortAtoms items).map (fun sorted => .list (sorted.map element))
  | v => .error (.wrongType ("Type <class '" ++ v.typeName ++ "'> not serializable"))

def displayed (v : Value) : Except Fault Value :=
  .ok (.str v.text)

def dump (v : Value) : Except Fault String :=
  (replaceLeaves serial v).map renderText

def dumpBy (rule : Value → Except Fault Value) (v : Value) : Except Fault String := do
  return renderText (← ordered (← replaceLeaves rule v))

def dumpOrdered (v : Value) : Except Fault String :=
  dumpBy displayed v

def dumpStrict (v : Value) : Except Fault String :=
  dumpBy (fun leaf =>
    .error (.wrongType ("Object of type " ++ leaf.typeName ++ " is not JSON serializable"))) v

end FleetCache.Json
