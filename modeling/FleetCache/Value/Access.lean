import FleetCache.Fault

set_option autoImplicit false

namespace FleetCache

open FleetCache.Number

def Value.members (v : Value) : Except Fault Attributes :=
  match v with
  | .object members => .ok members
  | other => .error (.noAttribute ("'" ++ other.typeName ++ "' object has no attribute 'get'"))

def Value.member (v : Value) (name : Atom) : Except Fault Value :=
  v.members.map (fun members => members.get name)

def Value.required (v : Value) (name : String) : Except Fault Value :=
  match v with
  | .object members =>
    match members.lookup (.str name) with
    | some w => .ok w
    | none => .error (.missingKey name)
  | .str _ => .error (.wrongType "string indices must be integers, not 'str'")
  | .list _ => .error (.wrongType "list indices must be integers or slices, not str")
  | other => .error (.wrongType ("'" ++ other.typeName ++ "' object is not subscriptable"))

def Value.namedItems (v : Value) : Except Fault Attributes :=
  match v with
  | .object members => .ok members
  | other => .error (.noAttribute ("'" ++ other.typeName ++ "' object has no attribute 'items'"))

/-- A value as an atom; collections that can change name nothing and are no elements of sets. -/
def Value.toAtom (v : Value) : Except Fault Atom :=
  match v with
  | .atom a => .ok a
  | other => .error (.wrongType ("unhashable type: '" ++ other.typeName ++ "'"))

def frontAtoms : List Value → List Atom × Option Fault
  | [] => ([], none)
  | v :: rest =>
    match v.toAtom with
    | .error fault => ([], some fault)
    | .ok a =>
      let (front, fault) := frontAtoms rest
      (a :: front, fault)

/-- The atom of a text; no other value will do. The place is that of the value among others. -/
def Value.toText (v : Value) (place : Nat) : Except Fault Atom :=
  match v with
  | .str s => .ok (.str s)
  | other => .error (.wrongType ("sequence item " ++ Text.natText place ++ ": expected str instance, "
      ++ other.typeName ++ " found"))

def characters (s : String) : List Atom :=
  s.toList.map (fun c => .str (String.ofList [c]))

def Value.elements (v : Value) : Except Fault (List Value) :=
  match v with
  | .list items => .ok items
  | .set items => .ok (items.map .atom)
  | .str s => .ok ((characters s).map .atom)
  | .object members => .ok (members.map (fun member => .atom member.1))
  | other => .error (.wrongType ("'" ++ other.typeName ++ "' object is not iterable"))

def Value.first (v : Value) : Except Fault Value :=
  match v with
  | .list (item :: _) => .ok item
  | .str s =>
    match characters s with
    | c :: _ => .ok c
    | [] => .error (.outOfRange "string index out of range")
  | .list [] => .error (.outOfRange "list index out of range")
  | .object members =>
    match members.lookup (.int 0) with
    | some w => .ok w
    | none => .error (.missingKey (.int 0))
  | other => .error (.wrongType ("'" ++ other.typeName ++ "' object is not subscriptable"))

def Value.pair (index : Nat) (v : Value) : Except Fault (Atom × Value) :=
  match v.elements with
  | .ok [name, value] => name.toAtom.map (fun a => (a, value))
  | .ok parts => .error (.unpaired index parts.length)
  | .error _ =>
    .error (.wrongType ("cannot convert dictionary update sequence element #" ++ Text.natText index
      ++ " to a sequence"))

def Value.toMembers (v : Value) : Except Fault Attributes :=
  match v with
  | .object members => .ok members
  | other => do
    let items ← other.elements
    return Attributes.ofPairs (← items.zipIdx.mapM (fun (item, n) => item.pair n))

def distinctAtoms (items : List Atom) : List Atom :=
  items.eraseDups

def Value.elementAtoms (v : Value) : Except Fault (List Atom) := do
  (← v.elements).mapM Value.toAtom

def Value.toSet (v : Value) : Except Fault (List Atom) :=
  v.elementAtoms.map distinctAtoms

def insertOrdered {α : Type} (less : α → α → Bool) (item : α) : List α → List α
  | [] => [item]
  | head :: rest => if less item head then item :: head :: rest else head :: insertOrdered less item rest

/-- The items in ascending order; equal ones keep their order. -/
def sortBy {α : Type} (less : α → α → Bool) (items : List α) : List α :=
  items.foldl (fun acc item => insertOrdered less item acc) []

def unordered (v w : Value) : Fault :=
  .wrongType ("'<' not supported between instances of '" ++ v.typeName ++ "' and '" ++ w.typeName ++ "'")

/-- Whether an atom comes before another. Texts, numbers, and moments that both have an offset or both have
none can be ordered. -/
def Atom.less (a b : Atom) : Except Fault Bool :=
  match a, b with
  | .str s, .str t => .ok (s < t)
  | .time m, .time n =>
    if m.offset.isSome = n.offset.isSome then .ok (m.epochMicros < n.epochMicros)
    else .error (.wrongType "can't compare offset-naive and offset-aware datetimes")
  | a, b =>
    match a.number?, b.number? with
    | some x, some y => .ok (x < y)
    | _, _ => .error (unordered (.atom a) (.atom b))

mutual
/-- Whether a value comes before another. The first different items decide for lists, and a set comes before
a larger one that holds all its elements. -/
def Value.less : Value → Value → Except Fault Bool
  | .atom a, w => match w with | .atom b => a.less b | w => .error (unordered (.atom a) w)
  | .list items, w =>
    match w with
    | .list others => lessItems items others
    | w => .error (unordered (.list items) w)
  | .set items, w =>
    match w with
    | .set others => .ok (items.length < others.length && items.all (fun a => others.contains a))
    | w => .error (unordered (.set items) w)
  | .object members, w => .error (unordered (.object members) w)
termination_by structural v => v

def lessItems : List Value → List Value → Except Fault Bool
  | [], others => .ok !others.isEmpty
  | v :: rest, others =>
    match others with
    | [] => .ok false
    | w :: more => if v == w then lessItems rest more else v.less w
termination_by structural items => items
end

def insertOrdered? {α : Type} (less : α → α → Except Fault Bool) (item : α) :
    List α → Except Fault (List α)
  | [] => .ok [item]
  | head :: rest => do
    if ← less item head then return item :: head :: rest
    else return head :: (← insertOrdered? less item rest)

/-- Items that can be ordered in ascending order; equal ones keep their order. -/
def sortBy? {α : Type} (less : α → α → Except Fault Bool) (items : List α) : Except Fault (List α) :=
  items.foldlM (fun acc item => insertOrdered? less item acc) []

def sortValues (items : List Value) : Except Fault (List Value) :=
  sortBy? Value.less items

def sortMembers {α : Type} (members : List (Atom × α)) : Except Fault (List (Atom × α)) :=
  sortBy? (fun x y => x.1.less y.1) members

def sortAtoms (items : List Atom) : Except Fault (List Value) :=
  sortValues (items.map .atom)

def requireTexts (items : List Atom) : Except Fault (List String) :=
  items.mapM (fun a =>
    match a with
    | .str s => .ok s
    | other => .error (.wrongType ("expected string, got '" ++ (Value.atom other).typeName ++ "'")))

def textsOf (items : List Value) : Except Fault (List String) := do
  requireTexts (← items.zipIdx.mapM (fun (v, place) => v.toText place))

def sortStrings (items : List String) : List String :=
  sortBy (fun s t => s < t) items

def distinctSorted (items : List String) : List String :=
  sortStrings items.eraseDups

end FleetCache
