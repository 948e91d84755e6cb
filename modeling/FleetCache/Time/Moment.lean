import FleetCache.Text.Integer
import FleetCache.Time.Calendar

set_option autoImplicit false

namespace FleetCache.Time

open FleetCache.Text

/-- A date and a time of day; the offset from universal time is in microseconds. -/
structure Moment where
  year : Nat
  month : Nat
  day : Nat
  hour : Nat
  minute : Nat
  second : Nat
  micro : Nat
  offset : Option Int
  deriving DecidableEq

def microsPerSecond : Int := 1000000

def microsPerDay : Int := 86400 * microsPerSecond

def Moment.microOfDay (m : Moment) : Int :=
  ((m.hour * 3600 + m.minute * 60 + m.second : Nat) : Int) * microsPerSecond + m.micro

/-- Microseconds from 1970-01-01T00:00 to the moment as its own clock shows it. -/
def Moment.local (m : Moment) : Int :=
  (Date.mk m.year m.month m.day).dayNumber * microsPerDay + m.microOfDay

def Moment.epochMicros (m : Moment) : Int :=
  m.local - m.offset.getD 0

/-- The moment at universal time some microseconds after 1970-01-01T00:00; there is none before the year
1 or after the year 9999. -/
def Moment.ofEpochMicros? (micros : Int) : Option Moment :=
  let date := Date.ofDayNumber (micros / microsPerDay)
  let rest := (micros % microsPerDay).toNat
  let seconds := rest / 1000000
  if 1 ≤ date.year ∧ date.year ≤ 9999 then
    some ⟨date.year.toNat, date.month, date.day, seconds / 3600, seconds / 60 % 60, seconds % 60,
      rest % 1000000, some 0⟩
  else none

def Moment.toUniversal? (m : Moment) : Option Moment :=
  match m.offset with
  | none => some m
  | some _ => Moment.ofEpochMicros? m.epochMicros

def fractionText (micro : Nat) : String :=
  if micro = 0 then "" else "." ++ padded 6 micro

def offsetText (offset : Int) : String :=
  let micros := offset.natAbs
  let seconds := micros / 1000000
  let rest := micros % 1000000
  (if offset < 0 then "-" else "+") ++ padded 2 (seconds / 3600) ++ ":" ++ padded 2 (seconds / 60 % 60)
    ++ (if seconds % 60 = 0 ∧ rest = 0 then "" else ":" ++ padded 2 (seconds % 60) ++ fractionText rest)

def Moment.dateText (m : Moment) : String :=
  padded 4 m.year ++ "-" ++ padded 2 m.month ++ "-" ++ padded 2 m.day

def Moment.clockText (m : Moment) : String :=
  padded 2 m.hour ++ ":" ++ padded 2 m.minute ++ ":" ++ padded 2 m.second ++ fractionText m.micro
    ++ (m.offset.map offsetText).getD ""

def Moment.iso (m : Moment) : String :=
  m.dateText ++ "T" ++ m.clockText

def Moment.text (m : Moment) : String :=
  m.dateText ++ " " ++ m.clockText

example : (⟨2024, 1, 2, 3, 4, 5, 6000, some (-30600000000)⟩ : Moment).iso
    = "2024-01-02T03:04:05.006000-08:30" := by decide +kernel

end FleetCache.Time
