import FleetCache.Traced

set_option autoImplicit false

namespace FleetCache

structure Checked (α : Type) where
  notes : List Event
  outcome : Except (List FieldError) α

namespace Checked

variable {α β : Type}

def combine (f : Except (List FieldError) (α → β)) (x : Except (List FieldError) α) :
    Except (List FieldError) β :=
  match f, x with
  | .ok g, .ok a => .ok (g a)
  | .error es, .ok _ => .error es
  | .ok _, .error es => .error es
  | .error es, .error more => .error (es ++ more)

instance : Applicative Checked where
  pure a := ⟨[], .ok a⟩
  seq f x := ⟨f.notes ++ (x ()).notes, combine f.outcome (x ()).outcome⟩

def violation (rule : String) : Checked α :=
  ⟨[], .error [⟨[], rule⟩]⟩

def under (step : PathStep) (x : Checked α) : Checked α :=
  ⟨x.notes, x.outcome.mapError (fun es => es.map (fun e => { e with path := step :: e.path }))⟩

def each (check : Value → Checked α) : Nat → List Value → Checked (List α)
  | _, [] => pure []
  | n, v :: rest => List.cons <$> under (.index n) (check v) <*> each check (n + 1) rest

def run (x : Checked α) : Traced α :=
  ⟨x.outcome.mapError .schema, x.notes⟩

end Checked

namespace Schema

variable {α : Type}

def optional (members : Attributes) (name : String) (default : α) (check : Value → Checked α) :
    Checked α :=
  match members.lookup (.str name) with
  | none => pure default
  | some v => Checked.under (.member name) (check v)

def asText (v : Value) : Checked String :=
  match v with
  | .str s => pure s
  | _ => Checked.violation "string_type"

def asTextOrNull (v : Value) : Checked (Option String) :=
  match v with
  | .null => pure none
  | other => some <$> asText other

def asList (check : Value → Checked α) (v : Value) : Checked (List α) :=
  match v with
  | .list items => Checked.each check 0 items
  | .set items => Checked.each check 0 (items.map .atom)
  | _ => Checked.violation "list_type"

def asRecord (check : Attributes → Checked α) (v : Value) : Checked α :=
  match v with
  | .object members => check members
  | _ => Checked.violation "model_type"

def nullAs (substitute v : Value) : Value :=
  match v with
  | .null => substitute
  | other => other

def nameStep : Atom → PathStep
  | .int n => .index n
  | .bool b => .index (if b then 1 else 0)
  | name => .member name.shown

def namedByText (refuse : Checked Unit) : Attributes → Checked Attributes
  | [] => pure []
  | (.str name, v) :: rest => List.cons (.str name, v) <$> namedByText refuse rest
  | (name, _) :: rest =>
    (fun _ others => others) <$> Checked.under (nameStep name) refuse <*> namedByText refuse rest

def extras (members : Attributes) (names : List String) : Checked Attributes :=
  namedByText (Checked.violation "invalid_key")
    (members.filter (fun (name, _) => !names.any (fun known => Atom.str known == name)))

/-- An object of any members. What is wrong with a name is told of the name, not of the value. -/
def asObject (v : Value) : Checked Attributes :=
  match v with
  | .object members => namedByText (Checked.under (.member "[key]") (Checked.violation "string_type")) members
  | _ => Checked.violation "dict_type"

end Schema

end FleetCache
