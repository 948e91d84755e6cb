import Mathlib.Data.List.Forall2
import FleetCache.Proofs.ReportWrites
import FleetCache.Refresh.Cycle
/-!
What a refresh cycle does to the cache in memory. The times at which runs start and end, and at which the clock is read,
settle the outcome of every run beforehand; the cycle then writes the reports among the outcomes, in the order of the
agents, and nothing else.
-/
set_option autoImplicit false

namespace FleetCache.Refresh

open FleetCache.CacheStore FleetCache.Number

/-- What a cycle gets from an agent: a report, a fault, or nothing in time. -/
inductive Outcome where
  | report (report : Report)
  | fault (fault : Fault)
  | timeout

namespace Outcome

def ofWork (work : Traced Report) : Outcome :=
  match work.result with
  | .ok r => .report r
  | .error f => .fault f

def matching : Outcome → RunStatus
  | report _ => .success
  | fault _ => .failed
  | timeout => .timeout

def OwnTimeout (outcome : Outcome) : Prop :=
  ∃ text, outcome = .fault (.timedOut text)

/-- What the cycle takes an outcome for: it does not tell a timeout error of the load from its own. -/
def taken : Outcome → Outcome
  | fault (.timedOut _) => .timeout
  | outcome => outcome

def exit? : Outcome → Option ExitCode
  | fault (.exit code) => some code
  | _ => none

def error : Outcome → Option String
  | report _ => none
  | fault f => some f.message
  | timeout => some "timeout"

def written (types : List DataType) : Outcome → List (Atom × Nat)
  | report r => r.declaredCounts types
  | fault _ | timeout => []

/-- The cache after an outcome of a job: a report is put into it, anything else leaves it alone. -/
def put (store : Memory) (job : Job) : Outcome → Memory
  | report r => ((putReport job.agent job.types r : Change Memory _) store).2
  | fault _ | timeout => store

def run (job : Job) (startedAt : String) (duration : Seconds) (outcome : Outcome) : AgentRun :=
  ⟨job.agent, outcome.taken.matching, startedAt, duration, outcome.written job.types, outcome.taken.error⟩

theorem taken_matching_eq_iff {outcome : Outcome} : outcome.taken.matching = outcome.matching ↔ ¬ outcome.OwnTimeout := by
  cases outcome with
  | report r => exact iff_of_true rfl (fun ⟨_, h⟩ => nomatch h)
  | timeout => exact iff_of_true rfl (fun ⟨_, h⟩ => nomatch h)
  | fault f =>
    cases f with
    | timedOut text => exact iff_of_false (fun h => nomatch h) (fun h => h ⟨text, rfl⟩)
    | _ => exact iff_of_true rfl (fun ⟨_, h⟩ => nomatch h)

theorem ofWork_matching_ne_timeout (work : Traced Report) : (ofWork work).matching ≠ .timeout := by
  obtain ⟨result, events⟩ := work
  cases result <;> exact fun h => nomatch h

end Outcome

def Turn.outcome (turn : Turn) (work : Traced Report) : Outcome :=
  match turn.verdict with
  | .ended _ => .ofWork work
  | .timedOut _ => .timeout

/-- How the runs of a cycle are collected: each wait begins when the run before has been collected, and a run that is
withdrawn leaves its worker to the next one. -/
def turns (clock : Clock) (limit : Nat) (deadline : Instant) : Instant → List Instant → List Task → List (Task × Turn)
  | _, _, [] => []
  | now, free, task :: rest =>
    let turn := takeTurn (clock task.index now deadline) limit deadline free task.load.duration
    (task, turn) :: turns clock limit deadline turn.verdict.time
      (if turn.pickedUp then occupy free task.load.duration else free) rest

def outcomeOf (entry : Task × Turn) : Outcome :=
  entry.2.outcome entry.1.load.work

def upToExit : List (Task × Turn) → List (Task × Turn) × Option ExitCode
  | [] => ([], none)
  | entry :: rest =>
    match (outcomeOf entry).exit? with
    | some code => ([], some code)
    | none => (entry :: (upToExit rest).1, (upToExit rest).2)

theorem upToExit_of_none {all : List (Task × Turn)} (h : (upToExit all).2 = none) : (upToExit all).1 = all := by
  induction all with
  | nil => rfl
  | cons entry rest ih =>
    rw [upToExit] at h ⊢
    split at h
    · cases h
    · rw [ih h]

def Scheduler.cycle (clock : Clock) (begin : Instant) (scheduler : Scheduler) :
    List (Task × Turn) × Option ExitCode :=
  upToExit (turns clock scheduler.limits.micros (scheduler.deadline begin) begin (scheduler.openAt begin).free
    scheduler.tasks)

def endingWith {α : Type} (exit : Option ExitCode) (a : α) : Except Fault α :=
  match exit with
  | some code => .error (.exit code)
  | none => .ok a

def reports (entries : List (Task × Turn)) : List (Job × Report) :=
  entries.filterMap (fun entry =>
    match outcomeOf entry with
    | .report r => some (entry.1.job, r)
    | .fault _ | .timeout => none)

def putReports (store : Memory) (reports : List (Job × Report)) : Memory :=
  reports.foldl (fun store (job, report) => ((putReport job.agent job.types report : Change Memory _) store).2) store

theorem putReports_cons (store : Memory) (entry : Task × Turn) (rest : List (Task × Turn)) :
    putReports store (reports (entry :: rest)) =
      putReports ((outcomeOf entry).put store entry.1.job) (reports rest) := by
  unfold reports
  rw [List.filterMap_cons]
  cases outcomeOf entry <;> rfl

/-- How a run is kept. Its status is that of its outcome unless the load failed with a timeout error of its own. It is
also that of what the load came to, if besides the run was found to have ended. -/
structure Recorded (startedAt : String) (entry : Task × Turn) (run : AgentRun) : Prop where
  kept : ∃ duration, run = (outcomeOf entry).run entry.1.job startedAt duration
  matches_outcome : run.status = (outcomeOf entry).matching ↔ ¬ (outcomeOf entry).OwnTimeout
  matches_load : run.status = (Outcome.ofWork entry.1.load.work).matching ↔
    (∃ time, entry.2.verdict = .ended time) ∧ ¬ (Outcome.ofWork entry.1.load.work).OwnTimeout

theorem recorded_run (startedAt : String) (entry : Task × Turn) (duration : Seconds) :
    Recorded startedAt entry ((outcomeOf entry).run entry.1.job startedAt duration) := by
  refine ⟨⟨duration, rfl⟩, Outcome.taken_matching_eq_iff, ?_⟩
  change (outcomeOf entry).taken.matching = _ ↔ _
  cases hverdict : entry.2.verdict with
  | ended time =>
    have houtcome : outcomeOf entry = .ofWork entry.1.load.work := by simp only [outcomeOf, Turn.outcome, hverdict]
    rw [houtcome, Outcome.taken_matching_eq_iff]
    exact (and_iff_right ⟨time, rfl⟩).symm
  | timedOut time =>
    have houtcome : outcomeOf entry = .timeout := by simp only [outcomeOf, Turn.outcome, hverdict]
    rw [houtcome]
    exact iff_of_false (Outcome.ofWork_matching_ne_timeout _).symm (fun ⟨⟨_, hended⟩, _⟩ => nomatch hended)

theorem giveUp_result (job : Job) (timeout : Value) (started : Bool) :
    (giveUp job timeout started).result = .ok (Outcome.timeout.run job "" (.whole 0)) := by
  unfold giveUp
  split <;> rfl

theorem settle_yields (job : Job) (timeout : Value) {work : Traced Report} (hstays : (Outcome.ofWork work).exit? = none)
    (store : Memory) :
    (settle job timeout work : Change Memory AgentRun).Yields store
      ((Outcome.ofWork work).run job "" (.whole 0)) ((Outcome.ofWork work).put store job) := by
  obtain ⟨result, events⟩ := work
  cases result with
  | error fault =>
    cases fault with
    | exit code => cases hstays
    | _ => exact ⟨_, rfl⟩
  | ok report =>
    have hput := putReport_yields job.agent job.types report store
    have hwrite : (writeReport job ⟨.ok report, events⟩ : Change Memory AgentRun).Yields store
        (Outcome.run job "" (.whole 0) (.report report)) (store.applyAll (report.operations job.agent job.types)) :=
      (Change.ends_lift rfl store).bind (hput.bind (Change.yields_pure _ _))
    have hstate : (Outcome.ofWork ⟨.ok report, events⟩).put store job =
        store.applyAll (report.operations job.agent job.types) := hput.state_eq
    rw [hstate]
    exact hwrite.rescue _

theorem conclude_yields (timeout : Value) (task : Task) (turn : Turn)
    (hstays : (turn.outcome task.load.work).exit? = none) (store : Memory) :
    (conclude timeout task turn : Change Memory AgentRun).Yields store
      ((turn.outcome task.load.work).run task.job "" (.whole 0)) ((turn.outcome task.load.work).put store task.job) := by
  obtain ⟨progress, verdict⟩ := turn
  cases verdict with
  | ended time => exact settle_yields task.job timeout hstays store
  | timedOut time => exact Change.ends_lift (giveUp_result task.job timeout _) store

theorem conclude_exits (timeout : Value) (task : Task) (turn : Turn) {code : ExitCode}
    (hexits : (turn.outcome task.load.work).exit? = some code) (store : Memory) :
    (conclude timeout task turn : Change Memory AgentRun).FailsWith store (.exit code) store := by
  obtain ⟨progress, verdict⟩ := turn
  obtain ⟨index, job, duration, result, events⟩ := task
  cases verdict with
  | timedOut time => cases hexits
  | ended time =>
    cases result with
    | ok report => cases hexits
    | error fault =>
      cases fault with
      | exit other =>
        obtain rfl : other = code := Option.some.inj hexits
        exact ⟨_, rfl⟩
      | _ => cases hexits

namespace Refreshing

variable {α : Type} {store after : Memory}

theorem onStore_ends {x : Change Memory α} {result : Except Fault α} (h : x.Ends store result after)
    (scheduler : Scheduler) (metrics : Metrics) :
    (onStore x).Ends ⟨store, scheduler, metrics⟩ result ⟨after, scheduler, metrics⟩ := by
  unfold onStore
  exact h.within (⟨store, scheduler, metrics⟩ : Refreshing Memory)

end Refreshing

structure Scheduler.Continues (old new : Scheduler) : Prop where
  jobs : new.jobs = old.jobs
  limits : new.limits = old.limits
  stopped : new.stopped = old.stopped
  counted : new.loads.length = old.loads.length

namespace Scheduler

variable {old between new scheduler : Scheduler}

theorem Continues.refl (scheduler : Scheduler) : scheduler.Continues scheduler :=
  ⟨rfl, rfl, rfl, rfl⟩

theorem Continues.trans (h : old.Continues between) (h' : between.Continues new) : old.Continues new where
  jobs := h'.jobs.trans h.jobs
  limits := h'.limits.trans h.limits
  stopped := h'.stopped.trans h.stopped
  counted := h'.counted.trans h.counted

theorem continues_takeUp (scheduler : Scheduler) (task : Task) :
    scheduler.Continues (scheduler.takeUp task) ∧ (scheduler.takeUp task).statuses = scheduler.statuses ∧
      (scheduler.takeUp task).free = occupy scheduler.free task.load.duration := by
  unfold takeUp
  split
  · rename_i hnone
    exact ⟨.refl scheduler, rfl, by rw [hnone]; rfl⟩
  · exact ⟨⟨rfl, rfl, rfl, List.length_modify _ _ _⟩, rfl, rfl⟩

theorem continues_foldl_takeUp (scheduler : Scheduler) (tasks : List Task) :
    scheduler.Continues (tasks.foldl takeUp scheduler) ∧
      (tasks.foldl takeUp scheduler).statuses = scheduler.statuses := by
  induction tasks generalizing scheduler with
  | nil => exact ⟨.refl scheduler, rfl⟩
  | cons task rest ih =>
    obtain ⟨hfirst, hstatuses, -⟩ := scheduler.continues_takeUp task
    obtain ⟨hrest, hsame⟩ := ih (scheduler.takeUp task)
    exact ⟨hfirst.trans hrest, hsame.trans hstatuses⟩

/-- The scheduler once the wait for a run is over: a run that was not withdrawn has a worker. -/
def waited (scheduler : Scheduler) (entry : Task × Turn) : Scheduler :=
  if entry.2.pickedUp then scheduler.takeUp entry.1 else scheduler

theorem continues_waited (scheduler : Scheduler) (entry : Task × Turn) :
    scheduler.Continues (scheduler.waited entry) ∧ (scheduler.waited entry).statuses = scheduler.statuses ∧
      (scheduler.waited entry).free =
        if entry.2.pickedUp then occupy scheduler.free entry.1.load.duration else scheduler.free := by
  unfold waited
  split
  · exact scheduler.continues_takeUp entry.1
  · exact ⟨.refl scheduler, rfl, rfl⟩

end Scheduler

section

variable {clock : Clock} {deadline now : Instant} {task : Task} {turn : Turn} {store : Memory} {scheduler : Scheduler}
  {metrics : Metrics}

theorem collect_yields (startedAt : String) (metrics : Metrics) (store : Memory)
    (hturn : takeTurn (clock task.index now deadline) scheduler.limits.micros deadline scheduler.free
      task.load.duration = turn) (hstays : (outcomeOf (task, turn)).exit? = none) :
    ∃ run next metrics', Recorded startedAt (task, turn) run ∧ scheduler.Continues next ∧
      next.statuses = latest run scheduler.statuses ∧
      next.free = (if turn.pickedUp then occupy scheduler.free task.load.duration else scheduler.free) ∧
      (collect clock deadline startedAt now task : Change (Refreshing Memory) _).Yields ⟨store, scheduler, metrics⟩
        (run, turn.verdict.time) ⟨(outcomeOf (task, turn)).put store task.job, next, metrics'⟩ := by
  obtain ⟨hwaited, hstatuses, hfree⟩ := scheduler.continues_waited (task, turn)
  have hconclude := Refreshing.onStore_ends (conclude_yields scheduler.limits.timeout task turn hstays store)
    (scheduler.waited (task, turn)) metrics
  let since := if turn.pickedUp then turn.progress.started.getD now else now
  let duration := Decimal.reduce false (turn.verdict.time - since) 6
  let run := (outcomeOf (task, turn)).run task.job startedAt (.measured duration)
  refine ⟨run, { scheduler.waited (task, turn) with statuses := latest run (scheduler.waited (task, turn)).statuses },
    metrics.recordRun run.agent run.status.name duration run.written, recorded_run startedAt _ _,
    ⟨hwaited.jobs, hwaited.limits, hwaited.stopped, hwaited.counted⟩, congrArg (latest run) hstatuses, hfree, ?_⟩
  unfold collect
  refine (Change.ends_ask rfl).bind ?_
  dsimp only
  rw [hturn]
  exact (Change.yields_update _ _).bind (hconclude.bind ((Change.yields_update _ _).bind (Change.yields_pure _ _)))

theorem collect_exits (startedAt : String) (metrics : Metrics) (store : Memory)
    (hturn : takeTurn (clock task.index now deadline) scheduler.limits.micros deadline scheduler.free
      task.load.duration = turn) {code : ExitCode} (hexits : (outcomeOf (task, turn)).exit? = some code) :
    ∃ next, scheduler.Continues next ∧ next.statuses = scheduler.statuses ∧
      (collect clock deadline startedAt now task : Change (Refreshing Memory) _).FailsWith ⟨store, scheduler, metrics⟩
        (.exit code) ⟨store, next, metrics⟩ := by
  obtain ⟨hwaited, hstatuses, -⟩ := scheduler.continues_waited (task, turn)
  have hconclude := Refreshing.onStore_ends (conclude_exits scheduler.limits.timeout task turn hexits store)
    (scheduler.waited (task, turn)) metrics
  refine ⟨scheduler.waited (task, turn), hwaited, hstatuses, ?_⟩
  unfold collect
  refine (Change.ends_ask rfl).bind ?_
  dsimp only
  rw [hturn]
  exact (Change.yields_update _ _).bind (hconclude.bind_error _)

end

theorem bind_endingWith {σ α β : Type} {x : Change σ α} {f : α → Change σ β} {state after : σ} {a : α} {b : β}
    {exit : Option ExitCode} (hx : x.Ends state (endingWith exit a) after) (hf : (f a).Yields after b after) :
    (x >>= f).Ends state (endingWith exit b) after := by
  cases exit with
  | none => exact hx.bind hf
  | some code => exact hx.bind_error f

theorem collectAll_ends (clock : Clock) (deadline : Instant) (startedAt : String) (tasks : List Task) (now : Instant)
    (scheduler : Scheduler) (metrics : Metrics) (store : Memory) :
    let cycle := upToExit (turns clock scheduler.limits.micros deadline now scheduler.free tasks)
    ∃ runs next metrics', List.Forall₂ (Recorded startedAt) cycle.1 runs ∧ scheduler.Continues next ∧
      next.statuses = runs.foldl (fun acc run => latest run acc) scheduler.statuses ∧
      (collectAll clock deadline startedAt now tasks : Change (Refreshing Memory) _).Ends ⟨store, scheduler, metrics⟩
        (endingWith cycle.2 runs) ⟨putReports store (reports cycle.1), next, metrics'⟩ := by
  induction tasks generalizing now scheduler metrics store with
  | nil => exact ⟨[], scheduler, metrics, .nil, .refl scheduler, rfl, Change.yields_pure _ _⟩
  | cons task rest ih =>
    obtain ⟨turn, hturn⟩ : ∃ turn, takeTurn (clock task.index now deadline) scheduler.limits.micros deadline
      scheduler.free task.load.duration = turn := ⟨_, rfl⟩
    rw [turns, hturn, upToExit, collectAll]
    cases hexit : (outcomeOf (task, turn)).exit? with
    | some code =>
      obtain ⟨between, hbetween, hstatuses, hcollect⟩ := collect_exits startedAt metrics store hturn hexit
      obtain ⟨hleft, hkept⟩ := between.continues_foldl_takeUp rest
      refine ⟨[], _, metrics, .nil, hbetween.trans hleft, hkept.trans hstatuses,
        Change.Ends.bind_error (hcollect.rescue_error ?_) _⟩
      exact (Change.yields_update _ _).bind (Change.ends_lift rfl _)
    | none =>
      obtain ⟨run, between, metrics', hrun, hbetween, hstatuses, hfree, hcollect⟩ :=
        collect_yields startedAt metrics store hturn hexit
      obtain ⟨runs, next, metrics'', hruns, hnext, hlatest, hrest⟩ := ih turn.verdict.time between metrics'
        ((outcomeOf (task, turn)).put store task.job)
      rw [hbetween.limits, hfree] at hruns hrest
      rw [hstatuses] at hlatest
      refine ⟨run :: runs, next, metrics'', .cons hrun hruns, hbetween.trans hnext, hlatest, ?_⟩
      rw [putReports_cons]
      exact (hcollect.rescue _).bind (bind_endingWith hrest (Change.yields_pure _ _))

theorem runOnce_ends {scheduler : Scheduler} (clock : Clock) (begin : Instant) (startedAt : String)
    (htimed : scheduler.limits.seconds?.isSome = true) (hopen : scheduler.stopped = false) (metrics : Metrics)
    (store : Memory) :
    ∃ runs next metrics', List.Forall₂ (Recorded startedAt) (scheduler.cycle clock begin).1 runs ∧
      scheduler.Continues next ∧ next.statuses = runs.foldl (fun acc run => latest run acc) scheduler.statuses ∧
      (runOnce clock begin startedAt : Change (Refreshing Memory) _).Ends ⟨store, scheduler, metrics⟩
        (endingWith (scheduler.cycle clock begin).2 runs)
        ⟨putReports store (reports (scheduler.cycle clock begin).1), next, metrics'⟩ := by
  obtain ⟨runs, next, metrics', hruns, hnext, hlatest, hall⟩ := collectAll_ends clock (scheduler.deadline begin)
    startedAt scheduler.tasks begin (scheduler.openAt begin) metrics store
  have htimed' : scheduler.limits.seconds?.isNone = false := by
    rw [Option.isNone_eq_false_iff]
    exact htimed
  refine ⟨runs, next, metrics', hruns, ⟨hnext.jobs, hnext.limits, hnext.stopped, hnext.counted⟩, hlatest, ?_⟩
  unfold runOnce
  refine (Change.ends_ask rfl).bind ?_
  dsimp only
  rw [htimed', hopen]
  exact (Change.yields_update _ _).bind
    (bind_endingWith hall ((Change.ends_lift rfl _).bind (Change.yields_pure _ _)))

end FleetCache.Refresh
