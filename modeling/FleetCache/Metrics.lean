import FleetCache.Value.Access

set_option autoImplicit false

namespace FleetCache

open FleetCache.Number

def addCount {α : Type} [BEq α] (label : α) (amount : Rat) : List (α × Rat) → List (α × Rat)
  | [] => [(label, rounded amount)]
  | (other, count) :: rest =>
    if other == label then (other, rounded (count + amount)) :: rest
    else (other, count) :: addCount label amount rest

structure Metrics where
  runs : List ((String × String) × Rat)
  durations : List (String × List Rat)
  written : List (String × Rat)

def Value.amount (v : Value) : Except Fault Rat :=
  match v.atom?.bind Atom.number? with
  | none => .error (unordered v (.int 0))
  | some x =>
    match rounded? x with
    | some _ => .ok x
    | none => .error (.overflow "int too large to convert to float")

namespace Metrics

def empty : Metrics :=
  ⟨[], [], []⟩

def bounds : List Decimal :=
  [⟨false, 5, 1⟩, ⟨false, 1, 0⟩, ⟨false, 5, 0⟩, ⟨false, 10, 0⟩, ⟨false, 30, 0⟩, ⟨false, 60, 0⟩,
    ⟨false, 120, 0⟩, ⟨false, 300, 0⟩, ⟨false, 600, 0⟩]

def observe (agent : String) (duration : Rat) : List (String × List Rat) → List (String × List Rat)
  | [] => [(agent, [duration])]
  | (other, seen) :: rest =>
    if other = agent then (other, duration :: seen) :: rest
    else (other, seen) :: observe agent duration rest

def writtenAmount (ns : Atom) (n : Value) : Except Fault (String × Rat) := do
  if ((n.atom?.bind Atom.number?).getD 0) < 0 then .error .negativeAmount
  else return (ns.text, rounded (← n.amount))

def add (metrics : Metrics) (agent status : String) (seconds : Rat) (amounts : List (String × Rat)) : Metrics :=
  ⟨addCount (agent, status) 1 metrics.runs, observe agent seconds metrics.durations,
    amounts.foldl (fun acc (label, amount) => addCount label amount acc) metrics.written⟩

def record (metrics : Metrics) (agent status duration written : Value) : Except Fault Metrics := do
  let seconds ← duration.amount
  let members ← if written.truthy then written.members else pure []
  let amounts ← members.mapM (fun (ns, n) => writtenAmount ns n)
  return metrics.add agent.text status.text seconds amounts

def recordRun (metrics : Metrics) (agent status : String) (duration : Decimal) (written : List (Atom × Nat)) :
    Metrics :=
  metrics.add agent status duration.exact (written.map (fun (ns, n) => (ns.text, rounded n)))

structure Sample where
  name : String
  labels : List (String × String)
  value : Rat

def withinBound (seen : List Rat) (bound : Decimal) : Nat :=
  (seen.filter (fun d => d ≤ bound.exact)).length

def durationSamples (agent : String) (seen : List Rat) : List Sample :=
  let name := "relcache_agent_run_duration_seconds"
  bounds.map (fun bound =>
      ⟨name ++ "_bucket", [("agent", agent), ("le", bound.text)], (withinBound seen bound : Rat)⟩) ++
    [⟨name ++ "_bucket", [("agent", agent), ("le", "+Inf")], (seen.length : Rat)⟩,
      ⟨name ++ "_count", [("agent", agent)], (seen.length : Rat)⟩]

def samples (metrics : Metrics) : List Sample :=
  metrics.runs.map (fun ((agent, status), n) =>
      ⟨"relcache_agent_runs_total", [("agent", agent), ("status", status)], n⟩) ++
    metrics.durations.flatMap (fun (agent, seen) => durationSamples agent seen) ++
    metrics.written.map (fun (ns, n) => ⟨"relcache_entities_written_total", [("namespace", ns)], n⟩)

def Sample.toValue (sample : Sample) : Value :=
  .list [.str sample.name, .object (sample.labels.map (fun (name, text) => (name, .str text))),
    .int sample.value.floor]

end Metrics

end FleetCache
