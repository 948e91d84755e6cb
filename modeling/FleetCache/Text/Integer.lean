import FleetCache.Text.Blank
import FleetCache.Text.Digit

set_option autoImplicit false

namespace FleetCache.Text

def maxDigits : Nat := 4300

inductive IntegerFault where
  | malformed
  | tooLong (digits : Nat)
  deriving DecidableEq

def ungroup (p : Char → Bool) : List Char → Option (List Char)
  | [] => none
  | [c] => if p c then some [c] else none
  | c :: '_' :: rest => if p c then (ungroup p rest).map (c :: ·) else none
  | c :: rest => if p c then (ungroup p rest).map (c :: ·) else none

def signed : List Char → Bool × List Char
  | '-' :: rest => (true, rest)
  | '+' :: rest => (false, rest)
  | rest => (false, rest)

def readInteger (text : List Char) : Except IntegerFault Int :=
  let (negative, body) := signed text
  match ungroup isDigit body with
  | none => .error .malformed
  | some digits =>
    if digits.length > maxDigits then .error (.tooLong digits.length)
    else
      let n : Int := digitsValue digits
      .ok (if negative then -n else n)

def natDigits (n : Nat) : List Char :=
  Nat.toDigits 10 n

def natText (n : Nat) : String :=
  String.ofList (natDigits n)

def intText (n : Int) : String :=
  if n < 0 then "-" ++ natText n.natAbs else natText n.natAbs

def padded (width n : Nat) : String :=
  let digits := natDigits n
  String.ofList (List.replicate (width - digits.length) '0' ++ digits)

def hexDigit (n : Nat) : Char :=
  Nat.digitChar n

def hexDigits : Nat → Nat → List Char
  | 0, _ => []
  | width + 1, n => hexDigits width (n / 16) ++ [hexDigit (n % 16)]

def hexValue? (c : Char) : Option Nat :=
  let n := c.toNat
  if 48 ≤ n && n ≤ 57 then some (n - 48)
  else if 97 ≤ n && n ≤ 102 then some (n - 87)
  else if 65 ≤ n && n ≤ 70 then some (n - 55)
  else none

example : (readInteger "1_000".toList).toOption = some 1000 := by decide +kernel
example : (readInteger "-12".toList).toOption = some (-12) := by decide +kernel
example : (readInteger "1__0".toList).toOption = none := by decide +kernel

end FleetCache.Text
