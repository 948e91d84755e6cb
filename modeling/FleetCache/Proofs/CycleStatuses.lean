import FleetCache.Proofs.CycleOutcomes

set_option autoImplicit false

namespace FleetCache.Refresh

open FleetCache.CacheStore

variable {jobs : List Job} {limits : Limits} {scheduler : Scheduler}

theorem map_task_turns (clock : Clock) (limit : Nat) (deadline now : Instant) (free : List Instant)
    (tasks : List Task) : (turns clock limit deadline now free tasks).map Prod.fst = tasks := by
  induction tasks generalizing now free with
  | nil => rfl
  | cons task rest ih => exact congrArg (List.cons task) (ih _ _)

theorem map_job_tasks (h : scheduler.loads.length = scheduler.jobs.length) :
    scheduler.tasks.map Task.job = scheduler.jobs := by
  unfold Scheduler.tasks
  refine List.ext_getElem ?_ (fun i hi hi' => ?_)
  · rw [List.length_map, List.length_mapIdx, List.length_zip, h, Nat.min_self]
  · rw [List.getElem_map, List.getElem_mapIdx, List.getElem_zip]

theorem upToExit_front (all : List (Task × Turn)) : (upToExit all).1 <+: all := by
  induction all with
  | nil => exact List.prefix_refl _
  | cons entry rest ih =>
    rw [upToExit]
    split
    · exact List.nil_prefix
    · exact List.cons_prefix_cons.2 ⟨rfl, ih⟩

theorem map_job_cycle (h : scheduler.loads.length = scheduler.jobs.length) (clock : Clock) (begin : Instant) :
    let cycle := scheduler.cycle clock begin
    cycle.1.map (fun entry => entry.1.job) <+: scheduler.jobs ∧
      (cycle.2 = none → cycle.1.map (fun entry => entry.1.job) = scheduler.jobs) := by
  obtain ⟨all, hall⟩ : ∃ all, turns clock scheduler.limits.micros (scheduler.deadline begin) begin
    (scheduler.openAt begin).free scheduler.tasks = all := ⟨_, rfl⟩
  have htasks : all.map Prod.fst = scheduler.tasks := by
    rw [← hall, map_task_turns]
  have hjobs : all.map (fun entry => entry.1.job) = scheduler.jobs := by
    rw [← map_job_tasks h, ← htasks, List.map_map]
    rfl
  intro cycle
  have hcycle : cycle = upToExit all := congrArg upToExit hall
  rw [hcycle, ← hjobs]
  exact ⟨(upToExit_front all).map _, fun hnone => by rw [upToExit_of_none hnone]⟩

theorem agents_of_recorded {startedAt : String} {entries : List (Task × Turn)} {runs : List AgentRun}
    (h : List.Forall₂ (Recorded startedAt) entries runs) :
    runs.map AgentRun.agent = (entries.map (fun entry => entry.1.job)).map Job.agent := by
  induction h with
  | nil => rfl
  | cons hrun _ ih =>
    obtain ⟨duration, rfl⟩ := hrun.kept
    exact congrArg (List.cons _) ih

theorem latest_append {run : AgentRun} {front : List AgentRun} (h : run.agent ∉ front.map AgentRun.agent)
    (back : List AgentRun) : latest run (front ++ back) = front ++ latest run back := by
  induction front with
  | nil => rfl
  | cons old rest ih =>
    rw [List.map_cons, List.mem_cons, not_or] at h
    rw [List.cons_append, latest, if_neg (Ne.symm h.1), ih h.2, List.cons_append]

theorem latest_of_first {run : AgentRun} {back : List AgentRun} {agents : List String}
    (h : back.map AgentRun.agent <+: run.agent :: agents) :
    ∃ more, latest run back = run :: more ∧ more.map AgentRun.agent <+: agents := by
  cases back with
  | nil => exact ⟨[], rfl, List.nil_prefix⟩
  | cons old more =>
    rw [List.map_cons, List.cons_prefix_cons] at h
    exact ⟨more, by rw [latest, if_pos h.1], h.2⟩

/-- Runs of the first of some agents take the places of the earlier runs of the same agents, or come behind one another
where there are none. -/
theorem foldl_latest {agents : List String} (front : List AgentRun) {runs back : List AgentRun}
    (hruns : runs.map AgentRun.agent <+: agents) (hback : back.map AgentRun.agent <+: agents)
    (hdistinct : (front.map AgentRun.agent ++ agents).Nodup) :
    ∃ left, runs.foldl (fun acc run => latest run acc) (front ++ back) = front ++ (runs ++ left) ∧
      (runs ++ left).map AgentRun.agent <+: agents := by
  induction runs generalizing front back agents with
  | nil => exact ⟨back, rfl, hback⟩
  | cons run rest ih =>
    cases agents with
    | nil => cases List.prefix_nil.1 hruns
    | cons agent agents =>
      rw [List.map_cons, List.cons_prefix_cons] at hruns
      obtain ⟨rfl, hrest⟩ := hruns
      have hnew : run.agent ∉ front.map AgentRun.agent := by
        rw [List.nodup_append] at hdistinct
        intro hmem
        exact hdistinct.2.2 _ hmem _ (List.mem_cons_self ..) rfl
      have hdistinct' : ((front ++ [run]).map AgentRun.agent ++ agents).Nodup := by
        rw [List.map_append, List.append_assoc]
        exact hdistinct
      obtain ⟨more, hmore, hback'⟩ := latest_of_first hback
      obtain ⟨left, hleft, hagents⟩ := ih (front ++ [run]) hrest hback' hdistinct'
      refine ⟨left, ?_, ?_⟩
      · rw [List.append_assoc, List.append_assoc] at hleft
        rw [List.foldl_cons, latest_append hnew, hmore]
        exact hleft
      · rw [List.cons_append, List.map_cons, List.cons_prefix_cons]
        exact ⟨rfl, hagents⟩

/-- A scheduler of some jobs as it is made, or after any cycles, however they ended. -/
inductive Scheduler.Reached (jobs : List Job) (limits : Limits) : Scheduler → Prop
  | made {scheduler : Scheduler} (h : Scheduler.make jobs limits = .ok scheduler) : Reached jobs limits scheduler
  | cycled {scheduler : Scheduler} (before : Reached jobs limits scheduler) (clock : Clock) (begin : Instant)
      (startedAt : String) (metrics : Metrics) (store : Memory) :
      Reached jobs limits
        ((runOnce clock begin startedAt : Change (Refreshing Memory) _) ⟨store, scheduler, metrics⟩).2.scheduler

structure Scheduler.Ready (jobs : List Job) (limits : Limits) (scheduler : Scheduler) : Prop where
  jobs_eq : scheduler.jobs = jobs
  limits_eq : scheduler.limits = limits
  running : scheduler.stopped = false
  counted : scheduler.loads.length = scheduler.jobs.length
  reported : scheduler.statuses.map AgentRun.agent <+: jobs.map Job.agent

theorem ready_of_make (h : Scheduler.make jobs limits = .ok scheduler) : scheduler.Ready jobs limits := by
  unfold Scheduler.make at h
  split at h
  · cases h
  · obtain rfl := Except.ok.inj h
    exact ⟨rfl, rfl, rfl, List.length_map _, List.nil_prefix⟩

/-- One cycle of a ready scheduler, whose agents are all different: it writes the reports it gets to, keeps the runs
among its statuses, and stays ready. -/
theorem Scheduler.Ready.runOnce_ends (h : scheduler.Ready jobs limits) (hdistinct : (jobs.map Job.agent).Nodup)
    (htimed : limits.seconds?.isSome = true) (clock : Clock) (begin : Instant) (startedAt : String) (metrics : Metrics)
    (store : Memory) :
    ∃ runs next metrics', (runOnce clock begin startedAt : Change (Refreshing Memory) _).Ends
        ⟨store, scheduler, metrics⟩ (endingWith (scheduler.cycle clock begin).2 runs)
        ⟨putReports store (reports (scheduler.cycle clock begin).1), next, metrics'⟩ ∧
      List.Forall₂ (Recorded startedAt) (scheduler.cycle clock begin).1 runs ∧ (∀ run ∈ runs, run ∈ next.statuses) ∧
      next.Ready jobs limits := by
  obtain ⟨runs, next, metrics', hruns, hnext, hlatest, hends⟩ :=
    Refresh.runOnce_ends clock begin startedAt (h.limits_eq ▸ htimed) h.running metrics store
  have hagents : runs.map AgentRun.agent <+: jobs.map Job.agent := by
    rw [agents_of_recorded hruns, ← h.jobs_eq]
    exact (map_job_cycle h.counted clock begin).1.map _
  obtain ⟨left, hleft, hfront⟩ := foldl_latest [] hagents h.reported hdistinct
  rw [List.nil_append, List.nil_append, ← hlatest] at hleft
  refine ⟨runs, next, metrics', hends, hruns, ?_, hnext.jobs.trans h.jobs_eq, hnext.limits.trans h.limits_eq,
    hnext.stopped.trans h.running, ?_, ?_⟩
  · intro run hrun
    rw [hleft]
    exact List.mem_append_left _ hrun
  · rw [hnext.counted, hnext.jobs, h.counted]
  · rw [hleft]
    exact hfront

theorem Scheduler.Reached.ready (h : Scheduler.Reached jobs limits scheduler)
    (hdistinct : (jobs.map Job.agent).Nodup) (htimed : limits.seconds?.isSome = true) :
    scheduler.Ready jobs limits := by
  induction h with
  | made h => exact ready_of_make h
  | cycled _ clock begin startedAt metrics store ih =>
    obtain ⟨_, next, _, hends, -, -, hnext⟩ := ih.runOnce_ends hdistinct htimed clock begin startedAt metrics store
    rw [hends.state_eq]
    exact hnext

/-- A cycle of agents that are all different, with any clock. It gets to the agents in order, and to all of them
unless a load exits, which ends it. It ends with one run for each agent that it got to. The cache afterwards is the
cache before with the reports among the outcomes put into it in the order of the agents, so failures and timeouts leave
no mark on it. The runs are among the statuses afterwards, which have no two runs of one agent. `Recorded` says when the
status of a run is that of what its load came to. -/
theorem cycle_puts_exactly_the_reports (hreached : Scheduler.Reached jobs limits scheduler)
    (hdistinct : (jobs.map Job.agent).Nodup) (htimed : limits.seconds?.isSome = true) (clock : Clock)
    (begin : Instant) (startedAt : String) (metrics : Metrics) (store : Memory) :
    let cycle := scheduler.cycle clock begin
    ∃ runs after events, (runOnce clock begin startedAt : Change (Refreshing Memory) _) ⟨store, scheduler, metrics⟩ =
        (⟨endingWith cycle.2 runs, events⟩, after) ∧
      cycle.1.map (fun entry => entry.1.job) <+: jobs ∧
      (cycle.2 = none → cycle.1.map (fun entry => entry.1.job) = jobs) ∧
      List.Forall₂ (Recorded startedAt) cycle.1 runs ∧ after.store = putReports store (reports cycle.1) ∧
      (∀ run ∈ runs, run ∈ after.scheduler.statuses) ∧ (after.scheduler.statuses.map AgentRun.agent).Nodup := by
  have hready := hreached.ready hdistinct htimed
  obtain ⟨runs, next, metrics', ⟨events, hcycle⟩, hruns, hkept, hnext⟩ :=
    hready.runOnce_ends hdistinct htimed clock begin startedAt metrics store
  obtain ⟨hfront, hall⟩ := map_job_cycle hready.counted clock begin
  rw [hready.jobs_eq] at hfront hall
  exact ⟨runs, _, events, hcycle, hfront, hall, hruns, rfl, hkept, hnext.reported.sublist.nodup hdistinct⟩

/-- A cycle with a report, a failure, a run that hangs and a report behind it. -/
theorem cycle_puts_exactly_the_reports_mixed :
    let image (id : Atom) : Entity := ⟨"image", id, [], ∅⟩
    let job (agent : String) (duration : Option Nat) (work : Traced Report) : Job :=
      ⟨agent, [owns .images], fun _ => ⟨duration, work⟩⟩
    let jobs := [job "east" (some 0) ⟨.ok ⟨[("image", [image "ami-1"])], false⟩, []⟩,
      job "north" (some 0) ⟨.error (.listing "north" "denied"), []⟩,
      job "south" (some 2500000) ⟨.ok ⟨[("image", [image "ami-2"])], false⟩, []⟩,
      job "west" (some 0) ⟨.ok ⟨[("image", [image "ami-3"])], false⟩, []⟩]
    ∃ scheduler, Scheduler.make jobs ⟨.int 2, 1⟩ = .ok scheduler ∧ (jobs.map Job.agent).Nodup ∧
      (Limits.mk (.int 2) 1).seconds?.isSome = true ∧
      let cycle := scheduler.cycle promptClock 0
      cycle.1.map (fun entry => (outcomeOf entry).matching) = [.success, .failed, .timeout, .success] ∧
      cycle.2.isNone = true ∧
      ∃ runs after events, (runOnce promptClock 0 "" : Change (Refreshing Memory) _)
          ⟨Memory.empty, scheduler, Metrics.empty⟩ = (⟨endingWith cycle.2 runs, events⟩, after) ∧
        List.Forall₂ (Recorded "") cycle.1 runs ∧ after.store = putReports Memory.empty (reports cycle.1) ∧
        (∀ run ∈ runs, run ∈ after.scheduler.statuses) := by
  intro image job jobs
  have hdistinct : (jobs.map Job.agent).Nodup := by decide
  have htimed : (Limits.mk (.int 2) 1).seconds?.isSome = true := rfl
  refine ⟨_, rfl, hdistinct, htimed, by decide +kernel, by decide +kernel, ?_⟩
  obtain ⟨runs, after, events, hcycle, -, -, hruns, hstore, hkept, -⟩ :=
    cycle_puts_exactly_the_reports (.made rfl) hdistinct htimed promptClock 0 "" Metrics.empty Memory.empty
  exact ⟨runs, after, events, hcycle, hruns, hstore, hkept⟩

/-- Three workers take up a load that fails with a timeout error of its own, one that hangs, and one that comes to a
report, the first and the last at once. All three are kept as timeouts, and the report is not put. -/
theorem fault_and_report_kept_as_timeouts :
    let work : Traced Report := ⟨.ok ⟨[("image", [⟨"image", "ami-1", [], ∅⟩])], false⟩, []⟩
    let jobs : List Job := [⟨"east", [owns .images], fun _ => ⟨some 0, ⟨.error (.timedOut "read timed out"), []⟩⟩⟩,
      ⟨"north", [owns .images], fun _ => ⟨none, ⟨.error (.unavailable "no connection"), []⟩⟩⟩,
      ⟨"west", [owns .images], fun _ => ⟨some 0, work⟩⟩]
    ∃ scheduler, Scheduler.make jobs ⟨.int 1, 3⟩ = .ok scheduler ∧ (jobs.map Job.agent).Nodup ∧
      scheduler.limits.micros = 1000000 ∧
      scheduler.tasks.map (fun task => (task.load.duration, (Outcome.ofWork task.load.work).matching)) =
        [(some 0, .failed), (none, .failed), (some 0, .success)] ∧
      let (done, after) := (runOnce promptClock 0 "" : Change (Refreshing Memory) _)
        ⟨Memory.empty, scheduler, Metrics.empty⟩
      done.result.toOption.map (fun runs => runs.map AgentRun.status) = some [.timeout, .timeout, .timeout] ∧
        after.store.size "image" = 0 ∧ ((Outcome.ofWork work).put Memory.empty jobs[2]).size "image" = 1 := by
  refine ⟨_, rfl, by decide, by decide +kernel, by decide +kernel, ?_⟩
  exact ⟨by decide +kernel, by decide +kernel, by decide +kernel⟩

end FleetCache.Refresh
