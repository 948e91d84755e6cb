set_option autoImplicit false

namespace FleetCache.Refresh

/-- A time in microseconds. -/
abbrev Instant := Nat

/-- When a run was picked up by a worker and when it ended, if ever. -/
structure Progress where
  started : Option Instant
  ended : Option Instant
  deriving DecidableEq

inductive Verdict where
  | ended (time : Instant)
  | timedOut (time : Instant)
  deriving DecidableEq

def happenedBy (event : Option Instant) (time : Instant) : Bool :=
  match event with
  | some e => e ≤ time
  | none => false

def poll : Nat := 500000

def waitUntil (progress : Progress) (now last : Instant) : Verdict :=
  match progress.ended with
  | some e => if e ≤ last then .ended (max now e) else .timedOut last
  | none => .timedOut last

def wait (limit : Nat) (deadline : Instant) (progress : Progress) : List Instant → Verdict
  | [] => .timedOut deadline
  | now :: later =>
    match progress.started with
    | some start =>
      if start ≤ now then
        if start + limit ≤ now then .timedOut now else waitUntil progress now (start + limit)
      else if deadline ≤ now then .timedOut now
      else
        match waitUntil progress now (now + min poll (deadline - now)) with
        | .ended time => .ended time
        | .timedOut _ => wait limit deadline progress later
    | none => if deadline ≤ now then .timedOut now else wait limit deadline progress later

/-- The times that a wait reads when nothing else takes time: each `poll` after the one before, and the
deadline at the end. -/
def readings (now deadline : Instant) : List Instant :=
  (List.range ((deadline - now) / poll + 1)).map (fun n => now + n * poll) ++ [max now deadline]

/-- What is read on the clock, in order, while the run at a place of a cycle is waited for, from a time on and with a
deadline. -/
abbrev Clock := Nat → Instant → Instant → List Instant

def promptClock : Clock :=
  fun _ now deadline => readings now deadline

def Verdict.time : Verdict → Instant
  | .ended time => time
  | .timedOut time => time

structure Turn where
  progress : Progress
  verdict : Verdict

/-- Whether a worker has picked the run up by the end of the wait; if not, it is withdrawn. -/
def Turn.pickedUp (turn : Turn) : Bool :=
  match turn.verdict with
  | .ended _ => true
  | .timedOut time => happenedBy turn.progress.started time

def nextProgress (free : List Instant) (duration : Option Nat) : Progress :=
  match free with
  | [] => ⟨none, none⟩
  | start :: _ => ⟨some start, duration.map (start + ·)⟩

def takeTurn (looks : List Instant) (limit : Nat) (deadline : Instant) (free : List Instant) (duration : Option Nat) :
    Turn :=
  ⟨nextProgress free duration, wait limit deadline (nextProgress free duration) looks⟩

def place (time : Instant) : List Instant → List Instant
  | [] => [time]
  | head :: more => if time < head then time :: head :: more else head :: place time more

/-- When the workers are free once the first of them has picked up a load; one that does not end keeps its worker. -/
def occupy (free : List Instant) (duration : Option Nat) : List Instant :=
  match free, duration with
  | [], _ => []
  | _ :: rest, none => rest
  | start :: rest, some d => place (start + d) rest

example : wait 100 200 ⟨some 0, some 0⟩ [0] = .ended 0 := by decide
example : wait 100 200 ⟨some 0, none⟩ [0] = .timedOut 100 := by decide

end FleetCache.Refresh
