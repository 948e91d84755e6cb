import FleetCache.Text.Quoted
import FleetCache.Time.Moment
/-!
ISO 8601 texts of moments. A date is written by month and day or by week, with hyphens or without. Behind
it, and behind any one character, there may be a time of day, with colons or without, and an offset from
universal time in the same form. A fraction counts to the sixth digit.
-/
set_option autoImplicit false

namespace FleetCache.Time

open FleetCache.Text

/-- Why a text is no moment: it is not written as one, or one of its numbers is out of range. -/
inductive IsoProblem where
  | malformed (text : String)
  | offset (micros : Int)
  | year (n : Int)
  | month
  | day
  | hour
  | minute
  | second

def durationParts (micros : Int) : List String :=
  let days := micros / microsPerDay
  let rest := micros % microsPerDay
  let seconds := rest / microsPerSecond
  [("days=", days), ("seconds=", seconds), ("microseconds=", rest % microsPerSecond)].filterMap
    (fun (name, n) => if n = 0 then none else some (name ++ intText n))

def shownDuration (micros : Int) : String :=
  "datetime.timedelta(" ++ join ", " (durationParts micros) ++ ")"

def IsoProblem.message : IsoProblem → String
  | .malformed text => "Invalid isoformat string: " ++ quoted text
  | .offset micros =>
    "offset must be a timedelta strictly between -timedelta(hours=24) and timedelta(hours=24), not "
      ++ shownDuration micros ++ "."
  | .year n => "year " ++ intText n ++ " is out of range"
  | .month => "month must be in 1..12"
  | .day => "day is out of range for month"
  | .hour => "hour must be in 0..23"
  | .minute => "minute must be in 0..59"
  | .second => "second must be in 0..59"

def takeNumber (width : Nat) (text : List Char) : Option (Nat × List Char) :=
  let front := text.take width
  if front.length = width ∧ front.all Char.isDigit then some (digitsValue front, text.drop width)
  else none

def takeHyphen : List Char → Option (List Char)
  | '-' :: rest => some rest
  | _ => none

/-- How many characters the date at the front of a text has. Behind a week, a hyphen before two digits
does not belong to the date, nor does any but a single digit. -/
def dateLength (text : List Char) : Nat :=
  if text.length = 7 then 7
  else
    match text.drop 4 with
    | '-' :: 'W' :: _ =>
      match text.drop 8 with
      | '-' :: _ :: c :: _ => if c.isDigit then 8 else 10
      | '-' :: _ => 10
      | _ => 8
    | '-' :: _ => 10
    | 'W' :: _ =>
      let digits := ((text.drop 7).takeWhile Char.isDigit).length
      if digits = 0 ∨ (digits % 2 = 1 ∧ digits ≠ 1) then 7 else 8
    | _ => 8

def readWeekday (hyphens : Bool) (text : List Char) : Option Nat :=
  if text.isEmpty then some 1
  else do
    let rest ← if hyphens then takeHyphen text else some text
    let (day, _) ← takeNumber 1 rest
    return day

/-- The date of a day of a week. The calendar starts with the year 1, and a week before it is in no month. -/
def weekDate? (year week day : Nat) : Option Date :=
  (Date.ofWeek? year week day).map (fun date => if year = 0 then ⟨1, 0, 0⟩ else date)

/-- The date that a text writes; its month and day may be out of range. -/
def readDate (text : List Char) : Option Date := do
  let (year, rest) ← takeNumber 4 text
  let hyphens := rest.head? == some '-'
  let rest := if hyphens then rest.drop 1 else rest
  match rest with
  | 'W' :: rest =>
    let (week, rest) ← takeNumber 2 rest
    weekDate? year week (← readWeekday hyphens rest)
  | _ =>
    let (month, rest) ← takeNumber 2 rest
    let rest ← if hyphens then takeHyphen rest else some rest
    let (day, _) ← takeNumber 2 rest
    return ⟨year, month, day⟩

structure Clock where
  hour : Nat
  minute : Nat
  second : Nat
  micro : Nat
  deriving DecidableEq

def midnight : Clock :=
  ⟨0, 0, 0, 0⟩

/-- The microseconds of a fraction and what stands behind its digits. The first six characters have to be
digits, as far as there are so many. -/
def takeFraction (text : List Char) : Option (Nat × List Char) :=
  let front := text.take 6
  if front.all Char.isDigit then
    some (digitsValue ((front ++ List.replicate 6 '0').take 6), (text.drop 6).dropWhile Char.isDigit)
  else none

/-- Some numbers of two digits with a fraction in microseconds, and what stands behind them. What stands
behind the first number tells whether there are colons. -/
def takeNumbers : Nat → Option Bool → List Char → Option (List Nat × Nat × List Char)
  | 0, _, text => (takeFraction text).map (fun (micro, rest) => ([], micro, rest))
  | count + 1, colons, text => do
    let (n, rest) ← takeNumber 2 text
    match rest with
    | [] => return ([n], 0, [])
    | [c] => if c.toNat < 128 then return ([n], 0, [c]) else none
    | c :: more =>
      let colons := colons.getD (c == ':')
      let (numbers, micro, rest) ←
        if colons && c == ':' then takeNumbers count (some colons) more
        else if c == '.' || c == ',' then takeNumbers 0 (some colons) more
        else if colons then none
        else takeNumbers count (some colons) rest
      return (n :: numbers, micro, rest)

def takeClock (text : List Char) : Option (Clock × List Char) := do
  let (numbers, micro, rest) ← takeNumbers 3 none text
  return (⟨numbers.getD 0 0, numbers.getD 1 0, numbers.getD 2 0, micro⟩, rest)

/-- Whether nothing is left of a text; it ends at the null character. -/
def isDone (text : List Char) : Bool :=
  text.headD '\x00' == '\x00'

def startsOffset (c : Char) : Bool :=
  c == '+' || c == '-' || c == 'Z'

/-- The offset from universal time that a text writes, in microseconds. An offset of less than a second is
none. -/
def readOffset : List Char → Option Int
  | 'Z' :: rest => if isDone rest then some 0 else none
  | sign :: rest => do
    let (size, rest) ← takeClock rest
    let seconds := size.hour * 3600 + size.minute * 60 + size.second
    let micros : Int := (seconds * 1000000 + size.micro : Nat)
    if !isDone rest then none
    else if seconds = 0 then return 0
    else return if sign = '-' then -micros else micros
  | [] => none

/-- The time of day that a text writes, with its offset. Before an offset, a character that belongs to
neither is passed over. -/
def readTime (text : List Char) : Option (Clock × Option Int) := do
  let front := text.takeWhile (fun c => !startsOffset c)
  let (clock, rest) ← takeClock front
  match text.drop front.length with
  | [] => if isDone rest then return (clock, none) else none
  | zone => return (clock, some (← readOffset zone))

def readIso (text : List Char) : Option (Date × Clock × Option Int) := do
  let length := dateLength text
  let date ← readDate (text.take length)
  match text.drop length with
  | [] => return (date, midnight, none)
  | _ :: rest => return (date, ← readTime rest)

def momentOf (date : Date) (clock : Clock) (offset : Option Int) : Except IsoProblem Moment :=
  let micros := offset.getD 0
  if microsPerDay ≤ micros.natAbs then .error (.offset micros)
  else if date.year < 1 ∨ 9999 < date.year then .error (.year date.year)
  else if date.month < 1 ∨ 12 < date.month then .error .month
  else if date.day < 1 ∨ daysInMonth date.year.toNat date.month < date.day then .error .day
  else if 24 ≤ clock.hour then .error .hour
  else if 60 ≤ clock.minute then .error .minute
  else if 60 ≤ clock.second then .error .second
  else .ok ⟨date.year.toNat, date.month, date.day, clock.hour, clock.minute, clock.second, clock.micro,
    offset⟩

def Moment.ofIso (s : String) : Except IsoProblem Moment :=
  match readIso s.toList with
  | none => .error (.malformed s)
  | some (date, clock, offset) => momentOf date clock offset

example : ((Moment.ofIso "2024-01-02T03:04:05.006-08:30").toOption.map Moment.iso)
    = some "2024-01-02T03:04:05.006000-08:30" := by decide +kernel
example : ((Moment.ofIso "2020-W53-7T2330,5+01").toOption.map Moment.iso)
    = some "2021-01-03T23:30:00.500000+01:00" := by decide +kernel
example : (Moment.ofIso "2024-02-30").toOption.isNone = true := by decide +kernel

end FleetCache.Time
