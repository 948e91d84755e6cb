import FleetCache.Proofs.CycleOutcomes
import FleetCache.Proofs.RunWaits

set_option autoImplicit false

namespace FleetCache.Refresh

open FleetCache.CacheStore

section

variable {start : Instant} {duration : Nat} {others : List Instant} {task : Task} {report : Report}

theorem outcomeOf_of_report (turn : Turn) (hreport : task.load.work.result = .ok report) :
    (∃ time, turn.verdict = .ended time) ∧ outcomeOf (task, turn) = .report report ∨
      (¬ ∃ time, turn.verdict = .ended time) ∧ outcomeOf (task, turn) = .timeout := by
  cases hverdict : turn.verdict with
  | ended time =>
    refine .inl ⟨⟨time, rfl⟩, ?_⟩
    simp only [outcomeOf, Turn.outcome, hverdict, Outcome.ofWork, hreport]
  | timedOut time =>
    refine .inr ⟨?_, ?_⟩
    · rintro ⟨_, h⟩
      cases h
    · simp only [outcomeOf, Turn.outcome, hverdict]

theorem collect_report_yields {clock : Clock} {deadline now : Instant} {turn : Turn} {scheduler : Scheduler}
    (startedAt : String) (metrics : Metrics) (store : Memory)
    (hturn : takeTurn (clock task.index now deadline) scheduler.limits.micros deadline scheduler.free
      task.load.duration = turn) (hreport : task.load.work.result = .ok report) :
    ∃ run next metrics', (collect clock deadline startedAt now task : Change (Refreshing Memory) _).Yields
        ⟨store, scheduler, metrics⟩ (run, turn.verdict.time)
        ⟨if run.ok then ((putReport task.job.agent task.job.types report : Change Memory _) store).2 else store, next,
          metrics'⟩ ∧
      run.agent = task.job.agent ∧ (run.status = .success ∨ run.status = .timeout) ∧
      (run.status = .success ↔ ∃ time, turn.verdict = .ended time) := by
  have houtcome := outcomeOf_of_report turn hreport
  have hstays : (outcomeOf (task, turn)).exit? = none := by
    obtain ⟨-, h⟩ | ⟨-, h⟩ := houtcome <;> rw [h] <;> rfl
  obtain ⟨_, next, metrics', hrun, -, -, -, hcollect⟩ := collect_yields startedAt metrics store hturn hstays
  obtain ⟨seconds, rfl⟩ := hrun.kept
  refine ⟨(outcomeOf (task, turn)).run task.job startedAt seconds, next, metrics', ?_⟩
  obtain ⟨hended, h⟩ | ⟨hlate, h⟩ := houtcome <;> rw [h] at hcollect ⊢
  · exact ⟨hcollect, rfl, .inl rfl, iff_of_true rfl hended⟩
  · exact ⟨hcollect, rfl, .inr rfl, iff_of_false (fun h => nomatch h) hlate⟩

/-- A run that ends with a report within its time limit, counted from when a worker picks it up. It is collected as a
success, and its report is put, when the last look at the clock comes before the limit is over. When the runs before it
kept the collector longer, it is collected as timed out, and nothing is put. With a clock that is looked at without any
delay the last look is in time when the collector gets round to the run in time. -/
theorem in_time_run_kept_iff_reached_in_time (clock : Clock) (deadline : Instant) (startedAt : String) (now : Instant)
    (task : Task) (scheduler : Scheduler) (metrics : Metrics) (store : Memory)
    (hfree : scheduler.free = start :: others) (hduration : task.load.duration = some duration)
    (hintime : duration < scheduler.limits.micros) (hreport : task.load.work.result = .ok report) :
    ∃ run time next metrics', (collect clock deadline startedAt now task : Change (Refreshing Memory) _).Yields
        ⟨store, scheduler, metrics⟩ (run, time)
        ⟨if run.ok then ((putReport task.job.agent task.job.types report : Change Memory _) store).2 else store, next,
          metrics'⟩ ∧
      run.agent = task.job.agent ∧ (run.status = .success ∨ run.status = .timeout) ∧
      (run.status = .success ↔ ∃ look, lastLook deadline ⟨some start, some (start + duration)⟩
          (clock task.index now deadline) = some look ∧
        (start ≤ look ∨ look < deadline) ∧ look < start + scheduler.limits.micros) ∧
      (clock task.index now deadline = readings now deadline → start ≤ now ∨ start ≤ deadline →
        (run.status = .success ↔ now < start + scheduler.limits.micros)) := by
  have hprogress : nextProgress scheduler.free task.load.duration = ⟨some start, some (start + duration)⟩ := by
    rw [hfree, hduration]
    rfl
  have hended : start + duration < start + scheduler.limits.micros := Nat.add_lt_add_left hintime start
  obtain ⟨turn, hturn⟩ : ∃ turn, takeTurn (clock task.index now deadline) scheduler.limits.micros deadline
    scheduler.free task.load.duration = turn := ⟨_, rfl⟩
  have hwait : wait scheduler.limits.micros deadline ⟨some start, some (start + duration)⟩
      (clock task.index now deadline) = turn.verdict := by
    rw [← hturn, takeTurn, hprogress]
  obtain ⟨run, next, metrics', hcollect, hagent, hstatus, hfound⟩ :=
    collect_report_yields startedAt metrics store hturn hreport
  rw [← hwait] at hfound
  refine ⟨run, turn.verdict.time, next, metrics', hcollect, hagent, hstatus,
    hfound.trans (wait_eq_ended_iff_lastLook hended _), fun hprompt hstarts => ?_⟩
  rw [hprompt, wait_readings_eq_ended_iff (Nat.le_add_right start duration) hended] at hfound
  exact hfound.trans (and_iff_left hstarts)

end

def quickJob : Job :=
  ⟨"quick", [owns .images], fun _ => ⟨some 0, ⟨.ok ⟨[("image", [⟨"image", "ami-1", [], ∅⟩])], false⟩, []⟩⟩⟩

def hangingJob : Job :=
  ⟨"hanging", [owns .images], fun _ => ⟨none, ⟨.error (.unavailable "no connection"), []⟩⟩⟩

theorem in_time_run_kept_iff_reached_in_time_late :
    ∃ scheduler, Scheduler.make [quickJob] ⟨.int 1, 2⟩ = .ok scheduler ∧ scheduler.limits.micros = 1000000 ∧
      scheduler.free = [0, 0] ∧ ∃ run time next metrics',
        (collect promptClock 1000000 "" 1000000 ⟨0, quickJob, quickJob.load 0⟩ :
          Change (Refreshing Memory) _).Yields ⟨Memory.empty, scheduler, Metrics.empty⟩ (run, time)
          ⟨Memory.empty, next, metrics'⟩ ∧
        run.agent = "quick" ∧ run.status = .timeout := by
  have hmicros : (Limits.mk (.int 1) 2).micros = 1000000 := by decide +kernel
  refine ⟨_, rfl, hmicros, rfl, ?_⟩
  obtain ⟨run, time, next, metrics', hcollect, hagent, hstatus, -, hprompt⟩ :=
    in_time_run_kept_iff_reached_in_time promptClock 1000000 "" 1000000 ⟨0, quickJob, quickJob.load 0⟩
      ⟨[quickJob], ⟨.int 1, 2⟩, [0], [0, 0], [], false⟩ Metrics.empty Memory.empty rfl rfl
      (by rw [hmicros]; decide) rfl
  have hlate : run.status = .timeout := by
    refine hstatus.resolve_left (fun hsuccess => ?_)
    have hreached := (hprompt rfl (.inl (Nat.zero_le _))).1 hsuccess
    rw [hmicros] at hreached
    exact absurd hreached (by decide)
  have hnotok : run.ok = false := by
    rw [AgentRun.ok, hlate]
    rfl
  rw [hnotok] at hcollect
  exact ⟨run, time, next, metrics', hcollect, hagent, hlate⟩

/-- Two workers take up a run that hangs and one that ends at once. The collector waits for the first until the limit
is over, and then gives up the second as well. -/
theorem quick_run_behind_hanging_one_given_up : ∃ scheduler,
    Scheduler.make [hangingJob, quickJob] ⟨.int 1, 2⟩ = .ok scheduler ∧ scheduler.limits.micros = 1000000 ∧
      (scheduler.cycle promptClock 0).1.map (fun entry => entry.2.progress) = [⟨some 0, none⟩, ⟨some 0, some 0⟩] ∧
      ((runOnce promptClock 0 "" : Change (Refreshing Memory) _)
        ⟨Memory.empty, scheduler, Metrics.empty⟩).1.result.toOption.map (fun runs => runs.map AgentRun.status) =
        some [.timeout, .timeout] := by
  refine ⟨_, rfl, ?_, ?_, ?_⟩
  · decide +kernel
  · decide +kernel
  · decide +kernel

/-- How long a load with a given outcome takes: one that is to be given up ends just behind the limit. -/
def Outcome.duration (limit : Nat) : Outcome → Nat
  | .report _ | .fault _ => 0
  | .timeout => limit + 1

def Outcome.work : Outcome → Traced Report
  | .report r => ⟨.ok r, []⟩
  | .fault f => ⟨.error f, []⟩
  | .timeout => ⟨.error (.unavailable "given up"), []⟩

section

variable {limit now time deadline : Nat}

theorem wait_readings_at_once (hlimit : 0 < limit) (hnow : now = time ∨ now + 1 = time) (hopen : time ≤ deadline) :
    wait limit deadline ⟨some time, some time⟩ (readings now deadline) = .ended time := by
  have hintime : time < time + limit := by omega
  rcases hnow with rfl | hbefore
  · have hreached : ¬ now + limit ≤ now := by omega
    rw [wait_readings_of_started (Nat.le_refl now) hintime, if_neg hreached, Nat.max_self]
  · exact wait_readings_of_not_started (by omega) hopen (Nat.le_refl time) hintime

/-- The only worker takes up a load with a given outcome. The wait for it comes to that outcome, if it begins as the
load is taken up or just before, and it is over as the worker is free again or just before. -/
theorem takeTurn_for_outcome (hlimit : poll ≤ limit) (hnow : now = time ∨ now + 1 = time) (hopen : time ≤ deadline)
    (outcome : Outcome) :
    let turn := takeTurn (readings now deadline) limit deadline [time] (some (outcome.duration limit))
    turn.outcome outcome.work = outcome ∧ turn.pickedUp = true ∧
      (turn.verdict.time = time + outcome.duration limit ∨ turn.verdict.time + 1 = time + outcome.duration limit) := by
  have hpositive : 0 < limit := Nat.lt_of_lt_of_le poll_pos hlimit
  cases outcome with
  | report r =>
    have hverdict : wait limit deadline ⟨some time, some time⟩ (readings now deadline) = .ended time :=
      wait_readings_at_once hpositive hnow hopen
    simp only [takeTurn, nextProgress, Outcome.duration, Option.map_some, Nat.add_zero, hverdict]
    exact ⟨rfl, rfl, .inl rfl⟩
  | fault f =>
    have hverdict : wait limit deadline ⟨some time, some time⟩ (readings now deadline) = .ended time :=
      wait_readings_at_once hpositive hnow hopen
    simp only [takeTurn, nextProgress, Outcome.duration, Option.map_some, Nat.add_zero, hverdict]
    exact ⟨rfl, rfl, .inl rfl⟩
  | timeout =>
    have hlate : time + limit < time + (limit + 1) := by omega
    have hverdict : wait limit deadline ⟨some time, some (time + (limit + 1))⟩ (readings now deadline) =
        .timedOut (time + limit) := wait_readings_of_late hlate hlimit (by omega) (by omega) hopen
    simp only [takeTurn, nextProgress, Outcome.duration, Option.map_some, hverdict]
    exact ⟨rfl, decide_eq_true (Nat.le_add_right time limit), .inr rfl⟩

structure Plan where
  agent : String
  types : List DataType
  outcome : Outcome

def Plan.job (limit : Nat) (plan : Plan) : Job :=
  ⟨plan.agent, plan.types, fun _ => ⟨some (plan.outcome.duration limit), plan.outcome.work⟩⟩

def Plan.of (entry : Task × Turn) : Plan :=
  ⟨entry.1.job.agent, entry.1.job.types, outcomeOf entry⟩

theorem turns_on_one_worker (hlimit : poll ≤ limit) {plans : List Plan} {tasks : List Task}
    (htasks : tasks.map (fun task => (task.job, task.load)) =
      plans.map (fun plan => (plan.job limit, (plan.job limit).load 0)))
    (hnow : now = time ∨ now + 1 = time) (hroom : time + plans.length * (limit + 1) ≤ deadline + limit + 1) :
    (turns promptClock limit deadline now [time] tasks).map Plan.of = plans := by
  induction plans generalizing now time tasks with
  | nil =>
    rw [List.map_eq_nil_iff.1 htasks]
    rfl
  | cons plan rest ih =>
    obtain ⟨task, others, rfl, htask, hothers⟩ := List.map_eq_cons_iff.1 htasks
    obtain ⟨hjob, hload⟩ := Prod.mk.inj htask
    rw [List.length_cons, Nat.succ_mul] at hroom
    have hopen : time ≤ deadline := by omega
    have hduration : plan.outcome.duration limit ≤ limit + 1 := by
      cases plan.outcome with
      | report | fault => exact Nat.zero_le _
      | timeout => exact Nat.le_refl _
    obtain ⟨houtcome, hpicked, htime⟩ := takeTurn_for_outcome hlimit hnow hopen plan.outcome
    have hmore := ih hothers htime (by omega)
    have hwork : task.load.work = plan.outcome.work := congrArg Load.work hload
    have htaken : task.load.duration = some (plan.outcome.duration limit) := congrArg Load.duration hload
    have hfirst (turn : Turn) (h : turn.outcome plan.outcome.work = plan.outcome) : Plan.of (task, turn) = plan := by
      rw [Plan.of, outcomeOf, hjob, hwork, h]
      rfl
    rw [turns, htaken, promptClock, if_pos hpicked, List.map_cons]
    exact congrArg₂ List.cons (hfirst _ houtcome) hmore

end

theorem upToExit_fst (all : List (Task × Turn)) :
    (upToExit all).1 = all.takeWhile (fun entry => (outcomeOf entry).exit?.isNone) := by
  induction all with
  | nil => rfl
  | cons entry rest ih =>
    rw [upToExit, List.takeWhile_cons]
    cases (outcomeOf entry).exit? with
    | some code => rfl
    | none => exact congrArg (List.cons entry) ih

theorem micros_of_nat (n : Nat) (workers : Int) : (Limits.mk (.int n) workers).micros = n * 1000000 := by
  have hseconds : (Limits.mk (.int n) workers).seconds? = some ((n : Int) : Rat) := rfl
  have hproduct : ((n : Int) : Rat) * 1000000 = ((n * 1000000 : Int) : Rat) := by
    rw [Rat.intCast_mul]
    rfl
  rw [Limits.micros, hseconds, Option.getD_some, hproduct, Rat.floor_intCast]
  rfl

theorem exists_cycle_with_outcomes (plans : List Plan) :
    ∃ jobs limits scheduler, Scheduler.make jobs limits = .ok scheduler ∧ limits.seconds?.isSome = true ∧
      (scheduler.cycle promptClock 0).1.map Plan.of = plans.takeWhile (fun plan => plan.outcome.exit?.isNone) := by
  -- with more seconds than agents the deadline leaves room for every load that is given up
  let limits : Limits := ⟨.int (plans.length + 1 : Nat), 1⟩
  let jobs := plans.map (Plan.job limits.micros)
  let scheduler : Scheduler := ⟨jobs, limits, jobs.map (fun _ => 0), [0], [], false⟩
  have hmicros : limits.micros = (plans.length + 1) * 1000000 := micros_of_nat _ _
  have hlimit : poll ≤ limits.micros := by
    rw [hmicros, poll]
    omega
  have hdeadline : scheduler.deadline 0 = limits.micros * plans.length := by
    have hrounds : rounds jobs.length 1 = plans.length := by
      rw [rounds, List.length_map]
      omega
    exact (Nat.zero_add _).trans (congrArg (limits.micros * ·) hrounds)
  have hroom : 0 + plans.length * (limits.micros + 1) ≤ scheduler.deadline 0 + limits.micros + 1 := by
    rw [hdeadline, Nat.mul_succ, Nat.mul_comm limits.micros]
    omega
  have htasks : scheduler.tasks.map (fun task => (task.job, task.load)) =
      plans.map (fun plan => (plan.job limits.micros, (plan.job limits.micros).load 0)) := by
    refine List.ext_getElem ?_ (fun i hi hi' => ?_)
    · simp [Scheduler.tasks, scheduler, jobs]
    · simp [Scheduler.tasks, scheduler, jobs]
  have hturns := turns_on_one_worker hlimit htasks (.inl rfl) hroom
  refine ⟨jobs, limits, scheduler, rfl, rfl, ?_⟩
  have hstays : (fun entry => (outcomeOf entry).exit?.isNone) =
      (fun plan : Plan => plan.outcome.exit?.isNone) ∘ Plan.of := rfl
  rw [Scheduler.cycle, upToExit_fst, hstays, ← List.takeWhile_map]
  exact congrArg _ hturns

end FleetCache.Refresh
