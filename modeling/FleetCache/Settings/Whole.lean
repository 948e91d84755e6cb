import FleetCache.Text.Blank
import FleetCache.Text.Integer
/-!
Whole numbers as settings write them. A plain number has an optional minus and digits without leading
zeros. Other spellings are first cleaned: outer blanks, a plus that is not before a minus, leading zeros, a
fraction of zeros and single underscores between characters are dropped, and what remains has to be a plain
number.
-/
set_option autoImplicit false

namespace FleetCache.Settings

open FleetCache.Text

inductive WholeFault where
  | malformed
  | tooLong
  deriving DecidableEq

def WholeFault.rule : WholeFault → String
  | .malformed => "int_parsing"
  | .tooLong => "int_parsing_size"

def isPlainDigit (c : Char) : Bool :=
  '0' ≤ c && c ≤ '9'

def isLeadingDigit (c : Char) : Bool :=
  '1' ≤ c && c ≤ '9'

/-- The digits at the front of a text: a zero on its own, or all up to the first other character. -/
def frontDigits (text : List Char) : List Char :=
  match text with
  | '0' :: _ => ['0']
  | _ => text.takeWhile isPlainDigit

/-- The number that a text plainly writes. A number that is too long is refused before what follows it is
looked at. -/
def readPlain (text : List Char) : Except WholeFault Int :=
  let (negative, body) :=
    match text with
    | '-' :: body => (true, body)
    | body => (false, body)
  let digits := frontDigits body
  let n : Int := digitsValue digits
  if digits.isEmpty then .error .malformed
  else if maxDigits < digits.length + (if negative then 1 else 0) then .error .tooLong
  else if digits.length < body.length then .error .malformed
  else .ok (if negative then -n else n)

/-- What remains behind leading zeros, among which there may be underscores; `last` is the character
before. -/
def behindZeros (last : Char) : List Char → Option (List Char)
  | [] => some [last]
  | c :: rest =>
    if c = '0' ∨ c = '_' then behindZeros c rest
    else if c = '-' ∨ isLeadingDigit c then some (c :: rest)
    else if c = '.' then some (last :: c :: rest)
    else none

def dropZeros : List Char → Option (List Char)
  | [] => none
  | c :: rest =>
    if c = '0' then behindZeros c rest
    else if c = '-' ∨ isLeadingDigit c then some (c :: rest)
    else none

def dropFraction (text : List Char) : List Char :=
  let whole := text.takeWhile (· != '.')
  let fraction := (text.drop whole.length).drop 1
  if !fraction.isEmpty && fraction.all (· == '0') then whole else text

/-- A text without its underscores, none of which may stand at an end or beside another. -/
def dropUnderscores (text : List Char) : Option (List Char) :=
  let parts := splitAt '_' text
  if parts.length ≤ 1 then some text
  else if parts.any List.isEmpty then none
  else some parts.flatten

/-- The number that a cleaned text writes; a text that cleaning did not change is no number. -/
def readCleaned (length : Nat) (text : List Char) : Except WholeFault Int :=
  match (dropZeros text).bind (fun rest => dropUnderscores (dropFraction rest)) with
  | none => .error .malformed
  | some cleaned => if cleaned.length = length then .error .malformed else readPlain cleaned

def readWhole (text : List Char) : Except WholeFault Int :=
  match readPlain text with
  | .error .malformed =>
    let trimmed := trimBy isSpace text
    match trimmed with
    | '+' :: '-' :: _ => .error .malformed
    | '+' :: body => readCleaned text.length body
    | body => readCleaned text.length body
  | done => done

example : (readWhole "00-12".toList).toOption = some (-12) := by decide +kernel
example : (readWhole " +0_1_0.00".toList).toOption = some 10 := by decide +kernel
example : (readWhole "5.".toList).toOption = none := by decide +kernel

end FleetCache.Settings
