import FleetCache.Agents.Agent
import FleetCache.Cache.Store
import FleetCache.Metrics
import FleetCache.Refresh.Wait
/-!
Refresh cycles. In a cycle every agent runs once, on a limited number of workers, and the results are
collected in the order of the agents. The report of a run that ended well is written; a run that failed
or timed out writes nothing, so what its agent contributed before stays.
-/
set_option autoImplicit false

namespace FleetCache.Refresh

open FleetCache.CacheStore FleetCache.Number FleetCache.Text

inductive RunStatus where
  | success
  | failed
  | timeout
  deriving DecidableEq

def RunStatus.name : RunStatus → String
  | .success => "success"
  | .failed => "failed"
  | .timeout => "timeout"

inductive Seconds where
  | whole (n : Int)
  | measured (d : Decimal)

structure AgentRun where
  agent : String
  status : RunStatus
  startedAt : String
  duration : Seconds
  written : List (Atom × Nat)
  error : Option String

def AgentRun.ok (run : AgentRun) : Bool :=
  run.status = .success

def Seconds.toValue : Seconds → Value
  | .whole n => .int n
  | .measured d =>
    let x := nearest d.ratio
    .decimal (Decimal.reduce d.negative (roundDiv (x.num * 1000) x.den) 3)

def AgentRun.toValue (run : AgentRun) : Value :=
  .object [("agent_type", .str run.agent), ("status", .str run.status.name),
    ("started_at", .str run.startedAt), ("duration", run.duration.toValue),
    ("written", Report.countsValue run.written), ("error", .ofOption run.error)]

/-- One load of an agent: how long it takes, if it ends at all, and what comes of it. -/
structure Load where
  duration : Option Nat
  work : Traced Report

/-- An agent as the scheduler sees it; loads are counted from zero. -/
structure Job where
  agent : String
  types : List DataType
  load : Nat → Load

def Job.ofAgent (agent : Agent) : Job :=
  ⟨agent.type, agent.types, fun _ => ⟨some 0, agent.load⟩⟩

/-- The limits of a cycle. The time limit of a run is kept as written, for the log. -/
structure Limits where
  timeout : Value
  workers : Int

def Limits.seconds? (limits : Limits) : Option Rat :=
  limits.timeout.atom?.bind Atom.number?

def Limits.micros (limits : Limits) : Nat :=
  ((limits.seconds?.getD 0) * 1000000).floor.toNat

def rounds (jobs workers : Nat) : Nat :=
  (jobs + workers - 1) / workers

/-- A scheduler with its jobs, how often each was loaded, and the latest run of each agent. Its workers stay the same
from cycle to cycle; `free` says when each of them is free, in ascending order, but for those that a load never lets go
of. -/
structure Scheduler where
  jobs : List Job
  limits : Limits
  loads : List Nat
  free : List Instant
  statuses : List AgentRun
  stopped : Bool

def Scheduler.make (jobs : List Job) (limits : Limits) : Except Fault Scheduler :=
  if limits.workers ≤ 0 then .error .noWorkers
  else .ok ⟨jobs, limits, jobs.map (fun _ => 0), List.replicate limits.workers.toNat 0, [], false⟩

def latest (run : AgentRun) : List AgentRun → List AgentRun
  | [] => [run]
  | old :: rest => if old.agent = run.agent then run :: rest else old :: latest run rest

structure Task where
  index : Nat
  job : Job
  load : Load

def Scheduler.tasks (scheduler : Scheduler) : List Task :=
  (scheduler.jobs.zip scheduler.loads).mapIdx (fun index (job, n) => ⟨index, job, job.load n⟩)

def Scheduler.takeUp (scheduler : Scheduler) (task : Task) : Scheduler :=
  match scheduler.free with
  | [] => scheduler
  | free => { scheduler with
      free := occupy free task.load.duration
      loads := scheduler.loads.modify task.index (· + 1) }

structure Refreshing (σ : Type) where
  store : σ
  scheduler : Scheduler
  metrics : Metrics

namespace Refreshing

variable {σ : Type}

def onStore {α : Type} (x : Change σ α) : Change (Refreshing σ) α :=
  x.within store (fun after state => { state with store := after })

def reschedule (f : Scheduler → Scheduler) : Change (Refreshing σ) Unit :=
  Change.update (fun state => { state with scheduler := f state.scheduler })

def record (run : AgentRun) (duration : Decimal) : Change (Refreshing σ) Unit :=
  Change.update (fun state => { state with
    scheduler := { state.scheduler with statuses := latest run state.scheduler.statuses }
    metrics := state.metrics.recordRun run.agent run.status.name duration run.written })

end Refreshing

variable {σ : Type} [CacheStore σ]

def unwritten (agent : String) (status : RunStatus) (error : String) : AgentRun :=
  ⟨agent, status, "", .whole 0, [], some error⟩

def writeReport (job : Job) (work : Traced Report) : Change σ AgentRun := do
  let report ← work
  let written ← putReport job.agent job.types report
  return ⟨job.agent, .success, "", .whole 0, written, none⟩

def giveUp (job : Job) (timeout : Value) (started : Bool) : Traced AgentRun := do
  if started then
    Traced.error (job.agent ++ " timed out after " ++ timeout.text ++ "s; keeping previous cache state")
  else Traced.error (job.agent ++ " never got a worker before the cycle deadline; skipped")
  return unwritten job.agent .timeout "timeout"

/-- Writes the report of a load that ended, and tells how the run went. A load that fails with the timeout error of its
own is taken for one that was given up. An exit is no failure of the run: it goes on to end the cycle. -/
def settle (job : Job) (timeout : Value) (work : Traced Report) : Change σ AgentRun :=
  (writeReport job work).rescue (fun fault => do
    match fault with
    | .timedOut _ => giveUp job timeout true
    | .exit _ => Traced.fail fault
    | .listing _ _ =>
      Traced.error (job.agent ++ " failed: " ++ fault.message ++ "; keeping previous cache state")
      return unwritten job.agent .failed fault.message
    | _ =>
      Traced.error (job.agent ++ " crashed")
      return unwritten job.agent .failed fault.message)

def conclude (timeout : Value) (task : Task) (turn : Turn) : Change σ AgentRun :=
  match turn.verdict with
  | .ended _ => settle task.job timeout task.load.work
  | .timedOut _ => giveUp task.job timeout turn.pickedUp

def collect (clock : Clock) (deadline : Instant) (startedAt : String) (now : Instant) (task : Task) :
    Change (Refreshing σ) (AgentRun × Instant) := do
  let ⟨_, scheduler, _⟩ ← Change.ask (fun state => return state)
  let turn := takeTurn (clock task.index now deadline) scheduler.limits.micros deadline scheduler.free
    task.load.duration
  Refreshing.reschedule (fun scheduler => if turn.pickedUp then scheduler.takeUp task else scheduler)
  let run ← Refreshing.onStore (conclude scheduler.limits.timeout task turn)
  let since := if turn.pickedUp then turn.progress.started.getD now else now
  let duration := Decimal.reduce false (turn.verdict.time - since) 6
  let run := { run with startedAt := startedAt, duration := .measured duration }
  Refreshing.record run duration
  return (run, turn.verdict.time)

/-- Collects the runs one after the other. When one of them ends the cycle, those behind it are left to the workers. -/
def collectAll (clock : Clock) (deadline : Instant) (startedAt : String) :
    Instant → List Task → Change (Refreshing σ) (List AgentRun)
  | _, [] => return []
  | now, task :: rest => do
    let (run, now) ← (collect clock deadline startedAt now task).rescue (fun fault => do
      Refreshing.reschedule (fun scheduler => rest.foldl Scheduler.takeUp scheduler)
      Traced.fail fault)
    let runs ← collectAll clock deadline startedAt now rest
    return run :: runs

def Scheduler.deadline (scheduler : Scheduler) (begin : Instant) : Instant :=
  begin + scheduler.limits.micros * rounds scheduler.jobs.length scheduler.limits.workers.toNat

def Scheduler.openAt (begin : Instant) (scheduler : Scheduler) : Scheduler :=
  { scheduler with free := scheduler.free.map (max begin) }

def runOnce (clock : Clock) (begin : Instant) (startedAt : String) : Change (Refreshing σ) (List AgentRun) := do
  let ⟨_, scheduler, _⟩ ← Change.ask (fun state => return state)
  if scheduler.limits.seconds?.isNone then
    Traced.fail (.wrongType ("a time limit cannot be a " ++ scheduler.limits.timeout.typeName))
  else if scheduler.stopped && !scheduler.jobs.isEmpty then
    Traced.fail (.unavailable "cannot schedule new futures after shutdown")
  else
    Refreshing.reschedule (Scheduler.openAt begin)
    let runs ← collectAll clock (scheduler.deadline begin) startedAt begin scheduler.tasks
    let failed := (runs.filter (fun run => !run.ok)).length
    Traced.info ("Refresh cycle finished: " ++ natText runs.length ++ " agents, " ++ natText failed ++ " failed")
    return runs

def stop (scheduler : Scheduler) : Scheduler :=
  { scheduler with stopped := true }

/-- A cycle of a scheduler that goes on by itself, and whether it does: after a crash, which is logged, the next cycle
is awaited, but an exit ends the thread without a word. -/
def runGuarded (clock : Clock) (begin : Instant) (startedAt : String) : Change (Refreshing σ) Bool :=
  ((fun _ => true) <$> runOnce clock begin startedAt).rescue (fun fault => do
    match fault with
    | .exit _ => return false
    | _ =>
      Traced.error "Refresh cycle crashed"
      return true)

end FleetCache.Refresh
