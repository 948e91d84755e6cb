import FleetCache.Time.Iso
import FleetCache.Value

set_option autoImplicit false

namespace FleetCache

open FleetCache.Text FleetCache.Time

def shownMoment (m : Moment) : String :=
  let clock :=
    if m.micro ≠ 0 then [m.second, m.micro] else if m.second ≠ 0 then [m.second] else []
  let numbers := ([m.year, m.month, m.day, m.hour, m.minute] ++ clock).map natText
  let zone :=
    match m.offset with
    | none => []
    | some 0 => ["tzinfo=datetime.timezone.utc"]
    | some offset => ["tzinfo=datetime.timezone(" ++ shownDuration offset ++ ")"]
  "datetime.datetime(" ++ join ", " (numbers ++ zone) ++ ")"

def Atom.shown : Atom → String
  | .null => "None"
  | .bool true => "True"
  | .bool false => "False"
  | .int n => intText n
  | .decimal d => d.text
  | .str s => quoted s
  | .time m => shownMoment m

def Atom.text : Atom → String
  | .str s => s
  | .time m => m.text
  | a => a.shown

mutual
def Value.shown : Value → String
  | .atom a => a.shown
  | .list items => "[" ++ join ", " (shownItems items) ++ "]"
  | .object members => "\x7b" ++ join ", " (shownMembers members) ++ "\x7d"
  | .set items =>
    if items.isEmpty then "set()" else "\x7b" ++ join ", " (items.map Atom.shown) ++ "\x7d"
termination_by structural v => v

def shownItems : List Value → List String
  | [] => []
  | v :: rest => v.shown :: shownItems rest
termination_by structural items => items

def shownMembers : List (Atom × Value) → List String
  | [] => []
  | member :: rest => shownMember member :: shownMembers rest
termination_by structural members => members

def shownMember : Atom × Value → String
  | (name, v) => name.shown ++ ": " ++ v.shown
termination_by structural member => member
end

def Value.text : Value → String
  | .atom a => a.text
  | v => v.shown

def shownCounts (counts : List (Atom × Nat)) : String :=
  Value.shown (.object (counts.map (fun (name, n) => (name, .ofNat n))))

end FleetCache
