/-!
The proleptic Gregorian calendar. Days are counted from 1970-01-01, in eras of 400 years that start on
the first of March, so that a leap day is the last day of its year.
-/
set_option autoImplicit false

namespace FleetCache.Time

def isLeap (year : Nat) : Bool :=
  year % 4 == 0 && (year % 100 != 0 || year % 400 == 0)

def daysInMonth (year month : Nat) : Nat :=
  if month = 2 then (if isLeap year then 29 else 28)
  else if month = 4 || month = 6 || month = 9 || month = 11 then 30 else 31

structure Date where
  year : Int
  month : Nat
  day : Nat
  deriving DecidableEq

def isDate (year month day : Nat) : Bool :=
  1 ≤ year && year ≤ 9999 && 1 ≤ month && month ≤ 12 && 1 ≤ day && day ≤ daysInMonth year month

def Date.dayNumber (date : Date) : Int :=
  let year : Int := if date.month ≤ 2 then date.year - 1 else date.year
  let era := year / 400
  let yearOfEra := year - era * 400
  let month : Int := if date.month > 2 then (date.month : Int) - 3 else (date.month : Int) + 9
  let dayOfYear := (153 * month + 2) / 5 + (date.day : Int) - 1
  let dayOfEra := yearOfEra * 365 + yearOfEra / 4 - yearOfEra / 100 + dayOfYear
  era * 146097 + dayOfEra - 719468

def Date.ofDayNumber (number : Int) : Date :=
  let shifted := number + 719468
  let era := shifted / 146097
  let dayOfEra := shifted - era * 146097
  let yearOfEra := (dayOfEra - dayOfEra / 1460 + dayOfEra / 36524 - dayOfEra / 146096) / 365
  let dayOfYear := dayOfEra - (365 * yearOfEra + yearOfEra / 4 - yearOfEra / 100)
  let month := (5 * dayOfYear + 2) / 153
  let day := dayOfYear - (153 * month + 2) / 5 + 1
  let civilMonth := if month < 10 then month + 3 else month - 9
  let year := yearOfEra + era * 400 + (if civilMonth ≤ 2 then 1 else 0)
  ⟨year, civilMonth.toNat, day.toNat⟩

/-- The day of the week of a day, counted from Monday as zero; 1970-01-01 was a Thursday. -/
def weekday (number : Int) : Nat :=
  ((number + 3) % 7).toNat

/-- The number of weeks of a year: 53 when it starts on a Thursday, or on a Wednesday before a leap day. -/
def weeksInYear (year : Nat) : Nat :=
  let first := weekday (Date.mk year 1 1).dayNumber
  if first = 3 || (first = 2 && isLeap year) then 53 else 52

def firstMonday (year : Nat) : Int :=
  let fourth := (Date.mk year 1 4).dayNumber
  fourth - weekday fourth

def Date.ofWeek? (year week day : Nat) : Option Date :=
  if 1 ≤ week ∧ week ≤ weeksInYear year ∧ 1 ≤ day ∧ day ≤ 7 then
    some (ofDayNumber (firstMonday year + 7 * (week - 1) + (day - 1)))
  else none

example : (⟨1970, 1, 1⟩ : Date).dayNumber = 0 := by decide
example : (⟨2000, 3, 1⟩ : Date).dayNumber = 11017 := by decide
example : Date.ofDayNumber 11016 = ⟨2000, 2, 29⟩ := by decide
example : Date.ofDayNumber (-719162) = ⟨1, 1, 1⟩ := by decide
example : Date.ofWeek? 2020 53 7 = some ⟨2021, 1, 3⟩ := by decide

end FleetCache.Time
