import FleetCache.Fault
import FleetCache.Text.Blank
import FleetCache.Time.Stamp

set_option autoImplicit false

namespace FleetCache

open FleetCache.Text FleetCache.Time

def Value.toMoment (v : Value) : Except Fault Moment :=
  match v with
  | .str s => (Moment.ofIso s).mapError (fun problem => .unusable problem.message)
  | _ => .error (.wrongType "fromisoformat: argument must be str")

def Value.epochMillis (v field : Value) : Except Fault Int :=
  match v with
  | .time m => .ok m.epochMillis
  | .str s =>
    match readStamp? s.toList with
    | some m => .ok m.epochMillis
    | none => .error (.unparsable field v)
  | _ => .error (.unparsable field v)

/-- A whole number, given as such or as its text; null stays absent, and truth values are no numbers. -/
def Value.wholeNumber (v field : Value) : Except Fault (Option Int) :=
  match v with
  | .null => .ok none
  | .bool _ => .error (.unparsable field v)
  | .int n => .ok (some n)
  | _ =>
    match readInteger (trim v.text.toList) with
    | .ok n => .ok (some n)
    | .error _ => .error (.unparsable field v)

def stampOf (m : Moment) : Except Fault String :=
  match writeStamp? m with
  | some text => .ok text
  | none => .error (.overflow "date value out of range")

def Value.stamped (v : Value) : Except Fault Value :=
  match v with
  | .time m => (stampOf m).map .str
  | other => .ok other

end FleetCache
