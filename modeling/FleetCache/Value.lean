import FleetCache.Number.Decimal
import FleetCache.Time.Moment
/-!
Provider data as it comes. An atom is null, a truth value, a number, a text or a moment; a value is an
atom, a list, an object or a set. Atoms name the members of objects and are the elements of sets. Two
atoms are the same name when they are equal: numbers by their size, where a truth value counts as one or
zero, and moments by the instant. The members of an object keep the order in which they were added, and
the form in which each was first named.
-/
set_option autoImplicit false

namespace FleetCache

open FleetCache.Number FleetCache.Text FleetCache.Time

inductive Atom where
  | null
  | bool (b : Bool)
  | int (n : Int)
  | decimal (d : Decimal)
  | str (s : String)
  | time (m : Moment)
  deriving Inhabited

namespace Atom

instance : Coe String Atom := ⟨str⟩

def number? : Atom → Option Rat
  | bool b => some (if b then 1 else 0)
  | int n => some n
  | decimal d => some d.exact
  | _ => none

def numberCode (x : Rat) : String :=
  "n" ++ intText x.num ++ "/" ++ natText x.den

/-- A text that equal atoms share and different ones do not. Those of texts come in the order of the
texts. -/
def code : Atom → String
  | null => "0"
  | str s => "s" ++ s
  | time m => if m.offset.isSome then "t" ++ intText m.epochMicros else "u" ++ intText m.local
  | bool b => numberCode (if b then 1 else 0)
  | int n => numberCode n
  | decimal d => numberCode d.exact

instance : BEq Atom := ⟨fun a b => a.code == b.code⟩

instance : Ord Atom := ⟨compareOn code⟩

instance : Std.TransOrd Atom :=
  inferInstanceAs (Std.TransCmp (compareOn code))

instance : EquivBEq Atom where
  rfl := by simp [BEq.beq]
  symm := by
    intro a b h
    simp only [BEq.beq, decide_eq_true_eq] at h ⊢
    exact h.symm
  trans := by
    intro a b c h₁ h₂
    simp only [BEq.beq, decide_eq_true_eq] at h₁ h₂ ⊢
    exact h₁.trans h₂

theorem beq_iff (a b : Atom) : (a == b) = true ↔ a.code = b.code := by
  simp [BEq.beq]

theorem str_beq_str (s t : String) : (str s == str t) = (s == t) := by
  have : (str s).code = (str t).code ↔ s = t := by
    constructor
    · intro h
      have := congrArg String.toList h
      exact String.toList_inj.1 (by simpa [code] using this)
    · rintro rfl
      rfl
  rw [Bool.eq_iff_iff, beq_iff, this, beq_iff_eq]

theorem compare_eq_iff (a b : Atom) : compare a b = .eq ↔ (a == b) = true := by
  rw [beq_iff]
  exact (Std.LawfulEqCmp.compare_eq_iff_eq : compare a.code b.code = .eq ↔ a.code = b.code)

/-- Whether an atom counts as present: not null, false, zero or empty. -/
def truthy : Atom → Bool
  | null => false
  | bool b => b
  | int n => n != 0
  | decimal d => !d.isZero
  | str s => s != ""
  | time _ => true

end Atom

inductive Value where
  | atom (a : Atom)
  | list (items : List Value)
  | object (members : List (Atom × Value))
  | set (items : List Atom)
  deriving Inhabited

namespace Value

instance : Coe Atom Value := ⟨atom⟩

@[match_pattern] abbrev null : Value := atom .null

@[match_pattern] abbrev bool (b : Bool) : Value := atom (.bool b)

@[match_pattern] abbrev int (n : Int) : Value := atom (.int n)

@[match_pattern] abbrev decimal (d : Decimal) : Value := atom (.decimal d)

@[match_pattern] abbrev str (s : String) : Value := atom (.str s)

@[match_pattern] abbrev time (m : Moment) : Value := atom (.time m)

instance : Coe String Value := ⟨str⟩

mutual
/-- Whether two values are equal; the order of the members of an object and of the elements of a set
does not matter. -/
def same : Value → Value → Bool
  | atom a, w => match w with | atom b => a == b | _ => false
  | list items, w => match w with | list others => sameItems items others | _ => false
  | object members, w =>
    match w with
    | object others => members.length == others.length && sameMembers members others
    | _ => false
  | set items, w =>
    match w with
    | set others => items.length == others.length && items.all (fun a => others.contains a)
    | _ => false
termination_by structural v => v

def sameItems : List Value → List Value → Bool
  | [], others => others.isEmpty
  | v :: rest, others => match others with | w :: more => same v w && sameItems rest more | [] => false
termination_by structural items => items

def sameMembers : List (Atom × Value) → List (Atom × Value) → Bool
  | [], _ => true
  | member :: rest, others => sameMember member others && sameMembers rest others
termination_by structural members => members

def sameMember : Atom × Value → List (Atom × Value) → Bool
  | (name, v), others => match others.lookup name with | some w => same v w | none => false
termination_by structural member => member
end

instance : BEq Value := ⟨same⟩

end Value

abbrev Attributes := List (Atom × Value)

namespace Attributes

def get (members : Attributes) (name : Atom) : Value :=
  (members.lookup name).getD .null

def has (members : Attributes) (name : Atom) : Bool :=
  (members.lookup name).isSome

def put : Attributes → Atom → Value → Attributes
  | [], name, value => [(name, value)]
  | (key, old) :: rest, name, value =>
    if name == key then (key, value) :: rest else (key, old) :: put rest name value

def fill (members : Attributes) (name : Atom) (value : Value) : Attributes :=
  if members.has name then members else members ++ [(name, value)]

def update (members other : Attributes) : Attributes :=
  other.foldl (fun acc (name, value) => acc.put name value) members

def fillAll (members other : Attributes) : Attributes :=
  other.foldl (fun acc (name, value) => acc.fill name value) members

def ofPairs (pairs : List (Atom × Value)) : Attributes :=
  update [] pairs

end Attributes

namespace Value

def ofOption : Option String → Value
  | none => .null
  | some s => .str s

def ofNat (n : Nat) : Value :=
  .int n

def atoms (items : List Atom) : Value :=
  .list (items.map .atom)

def strings (items : List String) : Value :=
  .list (items.map .str)

def truthy : Value → Bool
  | .atom a => a.truthy
  | .list items => !items.isEmpty
  | .object members => !members.isEmpty
  | .set items => !items.isEmpty

def orElse (v other : Value) : Value :=
  if v.truthy then v else other

def string? : Value → Option String
  | .str s => some s
  | _ => none

def typeName : Value → String
  | .null => "NoneType"
  | .bool _ => "bool"
  | .int _ => "int"
  | .decimal _ => "float"
  | .str _ => "str"
  | .time _ => "datetime.datetime"
  | .list _ => "list"
  | .object _ => "dict"
  | .set _ => "set"

def atom? : Value → Option Atom
  | .atom a => some a
  | _ => none

end Value

theorem lookup_put (members : Attributes) (name : Atom) (value : Value) (key : Atom) :
    (members.put name value).lookup key = if key == name then some value else members.lookup key := by
  induction members with
  | nil => cases h : key == name <;> simp [Attributes.put, List.lookup_cons, h]
  | cons head rest ih =>
    obtain ⟨other, old⟩ := head
    cases ho : name == other with
    | true =>
      have : (key == other) = (key == name) := (BEq.congr_right ho).symm
      cases h : key == name <;> simp [Attributes.put, List.lookup_cons, ho, h, this]
    | false =>
      cases hk : key == other with
      | true =>
        have : (key == name) = false := by
          cases hn : key == name with
          | false => rfl
          | true => simp [BEq.trans (BEq.symm hn) hk] at ho
        simp [Attributes.put, List.lookup_cons, ho, hk, this]
      | false => simp [Attributes.put, List.lookup_cons, ho, hk, ih]

theorem get_put (members : Attributes) (name : Atom) (value : Value) (key : Atom) :
    (members.put name value).get key = if key == name then value else members.get key := by
  cases h : key == name <;> simp [Attributes.get, lookup_put, h]

end FleetCache
