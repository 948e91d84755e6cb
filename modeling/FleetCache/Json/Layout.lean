import FleetCache.Json.Render

set_option autoImplicit false

namespace FleetCache.Json

open FleetCache.Text

def freshLine (depth : Nat) : List Char :=
  '\n' :: List.replicate (2 * depth) ' '

def laidOut (depth : Nat) (first last : Char) (parts : List (List Char)) : List Char :=
  if parts.isEmpty then [first, last]
  else
    first :: joinWith [','] (parts.map (freshLine (depth + 1) ++ ·)) ++ freshLine depth ++ [last]

mutual
def layout (depth : Nat) : Value → List Char
  | .list items => laidOut depth '[' ']' (layoutItems (depth + 1) items)
  | .object members => laidOut depth '\x7b' '\x7d' (layoutMembers (depth + 1) members)
  | v => render v
termination_by structural v => v

def layoutItems (depth : Nat) : List Value → List (List Char)
  | [] => []
  | v :: rest => layout depth v :: layoutItems depth rest
termination_by structural items => items

def layoutMembers (depth : Nat) : List (Atom × Value) → List (List Char)
  | [] => []
  | member :: rest => layoutMember depth member :: layoutMembers depth rest
termination_by structural members => members

def layoutMember (depth : Nat) : Atom × Value → List Char
  | (name, v) => renderString (nameText name) ++ ':' :: ' ' :: layout depth v
termination_by structural member => member
end

def layoutText (v : Value) : String :=
  String.ofList (layout 0 v)

end FleetCache.Json
