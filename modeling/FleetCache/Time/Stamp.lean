import FleetCache.Number.Binary64
import FleetCache.Time.Moment
/-!
Time stamps of the provider, in universal time. They are written to the minute; read, they may also
have seconds and a fraction of up to six digits. The result of reading is a number of milliseconds since
1970, rounded toward zero after the seconds were held as a binary floating number.
-/
set_option autoImplicit false

namespace FleetCache.Time

open FleetCache.Text FleetCache.Number

abbrev Shape := List (Char → Bool)

/-- One part of a stamp: a field with its possible shapes, or a fixed letter in either case. -/
inductive Part where
  | field (shapes : List Shape)
  | letter (c : Char)

def among (low high : Char) (c : Char) : Bool :=
  low ≤ c && c ≤ high

def yearField : Part :=
  .field [[isDigit, isDigit, isDigit, isDigit]]

def monthField : Part :=
  .field [[(· == '1'), among '0' '2'], [(· == '0'), among '1' '9'], [among '1' '9']]

def dayField : Part :=
  .field [[(· == '3'), among '0' '1'], [among '1' '2', isDigit], [(· == '0'), among '1' '9'],
    [among '1' '9'], [(· == ' '), among '1' '9']]

def hourField : Part :=
  .field [[(· == '2'), among '0' '3'], [among '0' '1', isDigit], [isDigit]]

def minuteField : Part :=
  .field [[among '0' '5', isDigit], [isDigit]]

def secondField : Part :=
  .field [[(· == '6'), among '0' '1'], [among '0' '5', isDigit], [isDigit]]

def fractionField : Part :=
  .field ([6, 5, 4, 3, 2, 1].map (fun n => List.replicate n (among '0' '9')))

def minuteParts : List Part :=
  [yearField, .letter '-', monthField, .letter '-', dayField, .letter 'T', hourField, .letter ':',
    minuteField]

def layouts : List (List Part) :=
  [minuteParts ++ [.letter 'Z'],
    minuteParts ++ [.letter ':', secondField, .letter 'Z'],
    minuteParts ++ [.letter ':', secondField, .letter '.', fractionField, .letter 'Z']]

def takeShape : Shape → List Char → Option (List Char × List Char)
  | [], text => some ([], text)
  | _ :: _, [] => none
  | p :: shape, c :: text =>
    if p c then (takeShape shape text).map (fun (front, rest) => (c :: front, rest)) else none

def readParts : List Part → List Char → List (List (List Char))
  | [], [] => [[]]
  | [], _ :: _ => []
  | .letter _ :: _, [] => []
  | .letter l :: parts, c :: text => if l.toLower = c.toLower then readParts parts text else []
  | .field shapes :: parts, text =>
    shapes.flatMap (fun shape =>
      match takeShape shape text with
      | none => []
      | some (front, rest) => (readParts parts rest).map (front :: ·))

def momentOfFields? (fields : List (List Char)) : Option Moment :=
  let moment := fun (year month day hour minute second : List Char) (micro : Nat) =>
    let m : Moment := ⟨digitsValue year, digitsValue month, digitsValue day, digitsValue hour,
      digitsValue minute, digitsValue second, micro, some 0⟩
    if isDate m.year m.month m.day && m.second < 60 then some m else none
  match fields with
  | [year, month, day, hour, minute] => moment year month day hour minute [] 0
  | [year, month, day, hour, minute, second] => moment year month day hour minute second 0
  | [year, month, day, hour, minute, second, fraction] =>
    moment year month day hour minute second (digitsValue ((fraction ++ List.replicate 6 '0').take 6))
  | _ => none

def readStamp? (text : List Char) : Option Moment :=
  layouts.findSome? (fun layout => (readParts layout text).head?.bind momentOfFields?)

def Moment.epochMillis (m : Moment) : Int :=
  let micros := m.epochMicros
  let seconds := nearest ⟨micros.natAbs, 1000000⟩
  let millis : Int := (nearest (seconds.times 1000)).whole
  if micros < 0 then -millis else millis

/-- The stamp of a moment on its own clock, to the minute; a year before 1000 is not filled up. -/
def Moment.stamp (m : Moment) : String :=
  natText m.year ++ "-" ++ padded 2 m.month ++ "-" ++ padded 2 m.day ++ "T" ++ padded 2 m.hour ++ ":"
    ++ padded 2 m.minute ++ "Z"

/-- The stamp of a moment in universal time; none outside the years 1 to 9999. -/
def writeStamp? (m : Moment) : Option String :=
  m.toUniversal?.map Moment.stamp

example : ((readStamp? "2024-1-2t3:4:5.123456Z".toList).map Moment.epochMillis)
    = some 1704164645123 := by decide +kernel
example : (readStamp? "1900-02-29T00:00Z".toList).isNone = true := by decide +kernel

end FleetCache.Time
