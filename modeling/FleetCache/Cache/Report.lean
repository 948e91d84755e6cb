import FleetCache.Entity
import FleetCache.Key.Namespace

set_option autoImplicit false

namespace FleetCache

/-- Whether a writer owns a namespace or only contributes to it. -/
inductive Authority where
  | authoritative
  | informative
  deriving DecidableEq

def Authority.name : Authority → String
  | .authoritative => "authoritative"
  | .informative => "informative"

def Authority.ofValue (v : Value) : Except Fault Authority :=
  match [Authority.authoritative, .informative].find? (fun a => Value.str a.name == v) with
  | some a => .ok a
  | none => .error (.notOneOf "Authority" v)

structure DataType where
  ns : Atom
  authority : Authority

def owns (ns : Namespace) : DataType :=
  ⟨.str ns.name, .authoritative⟩

def contributesTo (ns : Namespace) : DataType :=
  ⟨.str ns.name, .informative⟩

/-- The declared types by namespace; of several for one namespace the last one counts. -/
def declared (types : List DataType) : List DataType :=
  types.foldl (fun acc dt =>
    if acc.any (fun old => old.ns == dt.ns) then
      acc.map (fun old => if old.ns == dt.ns then ⟨old.ns, dt.authority⟩ else old)
    else acc ++ [dt]) []

/-- The entities of one agent run. An incremental report only adds to the earlier ones; a full report
replaces them. -/
structure Report where
  results : List (Atom × List Entity)
  incremental : Bool

namespace Report

def entities (report : Report) (ns : Atom) : List Entity :=
  (report.results.lookup ns).getD []

def counts (report : Report) : List (Atom × Nat) :=
  report.results.map (fun (ns, entities) => (ns, entities.length))

def total (report : Report) : Nat :=
  report.counts.foldl (fun total (_, n) => total + n) 0

def countsValue (counts : List (Atom × Nat)) : Value :=
  .object (counts.map (fun (ns, n) => (ns, .ofNat n)))

def toValue (report : Report) : Except Fault Value := do
  let results ← report.results.mapM (fun (ns, entities) => do
    return (ns, Value.list (← entities.mapM EntityOf.toValue)))
  return .object [("results", .object results), ("counts", countsValue report.counts),
    ("total", .ofNat report.total), ("incremental", .bool report.incremental)]

end Report

end FleetCache
