import FleetCache.Refresh.Wait
/-!
How the wait for a run ends. A wait that begins when its run has started looks at the clock once; one that begins
before looks again and again until the run has started, has ended, or is given up at the deadline.
-/
set_option autoImplicit false

namespace FleetCache.Refresh

theorem poll_pos : 0 < poll := by
  unfold poll
  omega

theorem map_range_period {period now deadline : Nat} (hperiod : 0 < period) (h : now + period ≤ deadline) :
    (List.range ((deadline - now) / period + 1)).map (fun n => now + n * period) =
      now :: (List.range ((deadline - (now + period)) / period + 1)).map (fun n => now + period + n * period) := by
  have hrounds : (deadline - now) / period = (deadline - (now + period)) / period + 1 := by
    have hgap : deadline - now = deadline - (now + period) + period := by omega
    rw [hgap, Nat.add_div_right _ hperiod]
  have hstep : (fun n => now + n * period) ∘ Nat.succ = fun n => now + period + n * period := by
    funext n
    rw [Function.comp_apply, Nat.succ_mul]
    omega
  rw [hrounds, List.range_succ_eq_map, List.map_cons, List.map_map, hstep, Nat.zero_mul, Nat.add_zero]

theorem readings_cons {now deadline : Nat} (h : now + poll ≤ deadline) :
    readings now deadline = now :: readings (now + poll) deadline := by
  have hlast : max now deadline = max (now + poll) deadline := by omega
  rw [readings, readings, map_range_period poll_pos h, hlast, List.cons_append]

theorem readings_of_lt {now deadline : Nat} (h : deadline < now + poll) :
    readings now deadline = [now, max now deadline] := by
  have hpoll := poll_pos
  have hrounds : (deadline - now) / poll = 0 := by
    apply Nat.div_eq_of_lt
    omega
  rw [readings, hrounds]
  simp

variable {limit deadline now start : Nat}

theorem wait_of_started {ended : Option Instant} (h : start ≤ now) (later : List Instant) :
    wait limit deadline ⟨some start, ended⟩ (now :: later) =
      if start + limit ≤ now then .timedOut now else waitUntil ⟨some start, ended⟩ now (start + limit) := by
  simp only [wait, if_pos h]

theorem wait_of_not_started {ended : Option Instant} (h : now < start) (hopen : now < deadline)
    (later : List Instant) :
    wait limit deadline ⟨some start, ended⟩ (now :: later) =
      match waitUntil ⟨some start, ended⟩ now (now + min poll (deadline - now)) with
      | .ended time => .ended time
      | .timedOut _ => wait limit deadline ⟨some start, ended⟩ later := by
  have hnotyet : ¬ start ≤ now := Nat.not_le.2 h
  have hinside : ¬ deadline ≤ now := Nat.not_le.2 hopen
  exact (if_neg hnotyet).trans (if_neg hinside)

theorem wait_of_closed {ended : Option Instant} (h : now < start) (hclosed : deadline ≤ now)
    (later : List Instant) :
    wait limit deadline ⟨some start, ended⟩ (now :: later) = .timedOut now := by
  simp only [wait, if_neg (Nat.not_le.2 h), if_pos hclosed]

theorem waitUntil_of_le {ended last : Nat} (h : ended ≤ last) :
    waitUntil ⟨some start, some ended⟩ now last = .ended (max now ended) := by
  simp only [waitUntil, if_pos h]

theorem waitUntil_of_lt {ended last : Nat} (h : last < ended) :
    waitUntil ⟨some start, some ended⟩ now last = .timedOut last := by
  simp only [waitUntil, if_neg (Nat.not_le.2 h)]

variable {ended : Nat}

/-- The wait for a run that ended within its limit, begun after the start of the run: it gives the run up once
the limit is over, although the run has ended. -/
theorem wait_ended_of_started (hstart : start ≤ now) (hintime : ended < start + limit) (later : List Instant) :
    wait limit deadline ⟨some start, some ended⟩ (now :: later) =
      if start + limit ≤ now then .timedOut now else .ended (max now ended) := by
  rw [wait_of_started hstart, waitUntil_of_le (Nat.le_of_lt hintime)]

theorem exists_readings_eq_cons (now deadline : Nat) : ∃ later, readings now deadline = now :: later := by
  by_cases h : now + poll ≤ deadline
  · exact ⟨_, readings_cons h⟩
  · exact ⟨_, readings_of_lt (Nat.not_le.1 h)⟩

theorem wait_readings_of_started (hstart : start ≤ now) (hintime : ended < start + limit) :
    wait limit deadline ⟨some start, some ended⟩ (readings now deadline) =
      if start + limit ≤ now then .timedOut now else .ended (max now ended) := by
  obtain ⟨later, hlater⟩ := exists_readings_eq_cons now deadline
  rw [hlater, wait_ended_of_started hstart hintime]

theorem wait_readings_of_not_started (hstart : now < start) (hopen : start ≤ deadline) (horder : start ≤ ended)
    (hintime : ended < start + limit) :
    wait limit deadline ⟨some start, some ended⟩ (readings now deadline) = .ended ended := by
  induction hgap : deadline - now using Nat.strongRecOn generalizing now with
  | ind gap ih =>
    have hpoll := poll_pos
    have hlast : max now ended = ended := by omega
    obtain ⟨later, hlater⟩ := exists_readings_eq_cons now deadline
    by_cases hsoon : ended ≤ now + min poll (deadline - now)
    · rw [hlater, wait_of_not_started hstart (by omega), waitUntil_of_le hsoon, hlast]
    · -- the wait comes back before the run has ended, so at a time within the limit
      have hnext : wait limit deadline ⟨some start, some ended⟩ later = .ended ended := by
        by_cases hmore : now + poll ≤ deadline
        · rw [readings_cons hmore] at hlater
          obtain rfl : readings (now + poll) deadline = later := (List.cons.inj hlater).2
          have hwhole : min poll (deadline - now) = poll := Nat.min_eq_left (Nat.le_sub_of_add_le' hmore)
          have hnotyet : now + poll < ended := by
            rw [hwhole] at hsoon
            exact Nat.not_le.1 hsoon
          by_cases hthen : start ≤ now + poll
          · have hbefore : ¬ start + limit ≤ now + poll := Nat.not_le.2 (Nat.lt_trans hnotyet hintime)
            have hmax : max (now + poll) ended = ended := Nat.max_eq_right (Nat.le_of_lt hnotyet)
            rw [wait_readings_of_started hthen hintime, if_neg hbefore, hmax]
          · exact ih (deadline - (now + poll)) (by omega) (by omega) rfl
        · rw [readings_of_lt (Nat.not_le.1 hmore)] at hlater
          obtain rfl : [max now deadline] = later := (List.cons.inj hlater).2
          have hthen : start ≤ max now deadline := by omega
          have hbefore : ¬ start + limit ≤ max now deadline := by omega
          have hmax : max (max now deadline) ended = ended := by omega
          rw [wait_ended_of_started hthen hintime, if_neg hbefore, hmax]
      rw [hlater, wait_of_not_started hstart (by omega), waitUntil_of_lt (Nat.not_le.1 hsoon)]
      exact hnext

/-- A run that only starts after the deadline is given up at the deadline, unless the wait begins later. -/
theorem wait_readings_of_closed (hstart : now < start) (hclosed : deadline < start) (horder : start ≤ ended) :
    wait limit deadline ⟨some start, some ended⟩ (readings now deadline) = .timedOut (max now deadline) := by
  induction hgap : deadline - now using Nat.strongRecOn generalizing now with
  | ind gap ih =>
    have hpoll := poll_pos
    obtain ⟨later, hlater⟩ := exists_readings_eq_cons now deadline
    by_cases hover : deadline ≤ now
    · rw [hlater, wait_of_closed hstart hover, Nat.max_eq_left hover]
    · have hnext : wait limit deadline ⟨some start, some ended⟩ later = .timedOut (max now deadline) := by
        by_cases hmore : now + poll ≤ deadline
        · rw [readings_cons hmore] at hlater
          obtain rfl : readings (now + poll) deadline = later := (List.cons.inj hlater).2
          have hsame : max now deadline = max (now + poll) deadline := by omega
          rw [hsame]
          exact ih (deadline - (now + poll)) (by omega) (by omega) rfl
        · rw [readings_of_lt (Nat.not_le.1 hmore)] at hlater
          obtain rfl : [max now deadline] = later := (List.cons.inj hlater).2
          exact wait_of_closed (by omega) (by omega) []
      rw [hlater, wait_of_not_started hstart (by omega), waitUntil_of_lt (by omega)]
      exact hnext

/-- A run that ended within its limit is found by the wait for it exactly when the wait begins within the limit,
and the run had started by then or before the deadline. -/
theorem wait_readings_eq_ended_iff (horder : start ≤ ended) (hintime : ended < start + limit) :
    (∃ time, wait limit deadline ⟨some start, some ended⟩ (readings now deadline) = .ended time) ↔
      now < start + limit ∧ (start ≤ now ∨ start ≤ deadline) := by
  by_cases hstart : start ≤ now
  · rw [wait_readings_of_started hstart hintime]
    by_cases hover : start + limit ≤ now
    · rw [if_pos hover]
      exact iff_of_false (by simp) (fun h => Nat.not_le.2 h.1 hover)
    · rw [if_neg hover]
      exact iff_of_true ⟨_, rfl⟩ ⟨Nat.not_le.1 hover, .inl hstart⟩
  · have hbefore : now < start := Nat.not_le.1 hstart
    by_cases hopen : start ≤ deadline
    · rw [wait_readings_of_not_started hbefore hopen horder hintime]
      exact iff_of_true ⟨ended, rfl⟩ ⟨by omega, .inr hopen⟩
    · rw [wait_readings_of_closed hbefore (Nat.not_le.1 hopen) horder]
      simp [hstart, hopen]

/-- The last time that a wait reads on the clock: that of the first look that finds the run started, or the deadline
over, or whose poll sees the run end. -/
def lastLook (deadline : Instant) (progress : Progress) : List Instant → Option Instant
  | [] => none
  | now :: later =>
    if happenedBy progress.started now ∨ deadline ≤ now ∨
        happenedBy progress.ended (now + min poll (deadline - now)) then some now
    else lastLook deadline progress later

/-- However the clock is read, the wait for a run that ended within its limit finds it exactly when the last look comes
within the limit, unless that look finds the deadline over before the run has started. -/
theorem wait_eq_ended_iff_lastLook (hintime : ended < start + limit) (looks : List Instant) :
    (∃ time, wait limit deadline ⟨some start, some ended⟩ looks = .ended time) ↔
      ∃ look, lastLook deadline ⟨some start, some ended⟩ looks = some look ∧ (start ≤ look ∨ look < deadline) ∧
        look < start + limit := by
  induction looks with
  | nil => exact iff_of_false (fun ⟨_, h⟩ => nomatch h) (fun ⟨_, h, _⟩ => nomatch h)
  | cons now later ih =>
    rw [lastLook]
    simp only [happenedBy, decide_eq_true_eq]
    split
    · rename_i hlast
      simp only [Option.some.injEq, exists_eq_left']
      by_cases hstart : start ≤ now
      · rw [wait_ended_of_started hstart hintime]
        by_cases hreached : now < start + limit
        · rw [if_neg (Nat.not_le.2 hreached)]
          exact iff_of_true ⟨_, rfl⟩ ⟨.inl hstart, hreached⟩
        · rw [if_pos (Nat.not_lt.1 hreached)]
          exact iff_of_false (fun ⟨_, h⟩ => nomatch h) (fun h => hreached h.2)
      · by_cases hopen : now < deadline
        · have hends : ended ≤ now + min poll (deadline - now) :=
            (hlast.resolve_left hstart).resolve_left (Nat.not_le.2 hopen)
          have hreached : now < start + limit := Nat.lt_add_right limit (Nat.not_le.1 hstart)
          rw [wait_of_not_started (Nat.not_le.1 hstart) hopen, waitUntil_of_le hends]
          exact iff_of_true ⟨_, rfl⟩ ⟨.inr hopen, hreached⟩
        · rw [wait_of_closed (Nat.not_le.1 hstart) (Nat.not_lt.1 hopen)]
          exact iff_of_false (fun ⟨_, h⟩ => nomatch h) (fun h => h.1.elim hstart hopen)
    · rename_i hgoesOn
      rw [not_or, not_or, Nat.not_le, Nat.not_le, Nat.not_le] at hgoesOn
      obtain ⟨hstart, hopen, hends⟩ := hgoesOn
      rw [wait_of_not_started hstart hopen, waitUntil_of_lt hends]
      exact ih

/-- A run that goes on beyond its limit is given up when the limit is over, if the wait begins before and not
more than one look at the clock ahead of the run. -/
theorem wait_readings_of_late (hlate : start + limit < ended) (hlimit : poll ≤ limit) (hnow : now < start + limit)
    (hsoon : start ≤ now + 1) (hopen : start ≤ deadline) :
    wait limit deadline ⟨some start, some ended⟩ (readings now deadline) = .timedOut (start + limit) := by
  have hpoll := poll_pos
  have hstarted (time : Nat) (later : List Instant) (hthen : start ≤ time) (hbefore : time < start + limit) :
      wait limit deadline ⟨some start, some ended⟩ (time :: later) = .timedOut (start + limit) := by
    rw [wait_of_started hthen, if_neg (Nat.not_le.2 hbefore), waitUntil_of_lt hlate]
  by_cases hstart : start ≤ now
  · obtain ⟨later, hlater⟩ := exists_readings_eq_cons now deadline
    rw [hlater, hstarted now later hstart hnow]
  · have hnext : ∃ time later, readings now deadline = now :: time :: later ∧ start ≤ time ∧ time ≤ now + poll := by
      by_cases hmore : now + poll ≤ deadline
      · obtain ⟨later, hlater⟩ := exists_readings_eq_cons (now + poll) deadline
        refine ⟨now + poll, later, ?_, by omega, Nat.le_refl _⟩
        rw [readings_cons hmore, hlater]
      · exact ⟨max now deadline, [], readings_of_lt (Nat.not_le.1 hmore), by omega, by omega⟩
    obtain ⟨time, later, hreadings, hthen, hbound⟩ := hnext
    rw [hreadings, wait_of_not_started (Nat.not_le.1 hstart) (by omega), waitUntil_of_lt (by omega)]
    exact hstarted time later hthen (by omega)

end FleetCache.Refresh
