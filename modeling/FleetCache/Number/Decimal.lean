import FleetCache.Number.Binary64
import FleetCache.Text.Integer

set_option autoImplicit false

namespace FleetCache.Number

open FleetCache.Text

/-- The number `± digits / 10 ^ places`. -/
structure Decimal where
  negative : Bool
  digits : Nat
  places : Nat
  deriving DecidableEq

def Decimal.ratio (d : Decimal) : Ratio :=
  ⟨d.digits, Nat.pow 10 d.places⟩

def Decimal.reduce (negative : Bool) (digits : Nat) : Nat → Decimal
  | 0 => ⟨negative, digits, 0⟩
  | places + 1 =>
    if digits % 10 = 0 then Decimal.reduce negative (digits / 10) places
    else ⟨negative, digits, places + 1⟩

/-- The binary floating number next to a decimal one, written out in full: its denominator is a power
of two, so it has as many decimal places as that power has. -/
def Decimal.expand (d : Decimal) : Decimal :=
  let x := nearest d.ratio
  let places := Nat.log2 x.den
  ⟨d.negative, x.num * Nat.pow 5 places, places⟩

def Decimal.leading (d : Decimal) (count : Nat) : List Decimal :=
  let length := (natDigits d.digits).length
  let drop := length - count
  let unit := Nat.pow 10 drop
  let near := roundDiv d.digits unit
  let far := if near * unit ≤ d.digits then near + 1 else near - 1
  let place := fun n =>
    if drop ≤ d.places then (⟨d.negative, n, d.places - drop⟩ : Decimal)
    else ⟨d.negative, n * Nat.pow 10 (drop - d.places), 0⟩
  [place near, place far]

def Decimal.shortest (d : Decimal) : Decimal :=
  let full := d.expand
  let candidates := (List.range 17).flatMap (fun n => full.leading (n + 1))
  let found := (candidates.find? (fun c => (nearest c.ratio).same full.ratio)).getD full
  Decimal.reduce found.negative found.digits found.places

/-- The decimal number of a literal: its digits before and behind the point, and the power of ten. -/
def Decimal.ofLiteral (negative : Bool) (whole fraction : List Char) (exponent : Int) : Decimal :=
  let digits := digitsValue (whole ++ fraction)
  let places := (fraction.length : Int) - exponent
  if places < 0 then Decimal.shortest ⟨negative, digits * Nat.pow 10 places.natAbs, 0⟩
  else Decimal.shortest ⟨negative, digits, places.natAbs⟩

def Decimal.isZero (d : Decimal) : Bool :=
  d.digits == 0

def Decimal.exact (d : Decimal) : Rat :=
  rounded (mkRat (if d.negative then -(d.digits : Int) else d.digits) (Nat.pow 10 d.places))

def Decimal.ofRat (x : Rat) : Decimal :=
  let places := Nat.log2 x.den
  Decimal.shortest ⟨decide (x.num < 0), x.num.natAbs * Nat.pow 5 places, places⟩

def positional (digits places : Nat) : String :=
  let all := natDigits digits
  let full := List.replicate (places + 1 - all.length) '0' ++ all
  let whole := full.take (full.length - places)
  let fraction := full.drop (full.length - places)
  String.ofList whole ++ "." ++ (if fraction.isEmpty then "0" else String.ofList fraction)

def scientific (digits : Nat) (exponent : Int) : String :=
  let significant := ((natDigits digits).reverse.dropWhile (· == '0')).reverse
  let mantissa :=
    match significant with
    | [] => "0"
    | [c] => String.ofList [c]
    | c :: rest => String.ofList [c] ++ "." ++ String.ofList rest
  mantissa ++ "e" ++ (if exponent < 0 then "-" else "+") ++ padded 2 exponent.natAbs

def Decimal.text (d : Decimal) : String :=
  let sign := if d.negative then "-" else ""
  let exponent : Int := ((natDigits d.digits).length : Int) - d.places - 1
  if d.digits = 0 then sign ++ "0.0"
  else if -4 ≤ exponent ∧ exponent < 16 then sign ++ positional d.digits d.places
  else sign ++ scientific d.digits exponent

example : (Decimal.ofLiteral false "1".toList "50".toList 0).text = "1.5" := by decide +kernel
example : (Decimal.ofLiteral false "2".toList "0".toList 0).text = "2.0" := by decide +kernel
example : (Decimal.ofLiteral false "0".toList "1000000000000000055".toList 0).text = "0.1" := by
  decide +kernel
example : (Decimal.ofLiteral true "0".toList "00001".toList 0).text = "-1e-05" := by decide +kernel
example : (Decimal.ofLiteral false "0".toList "1".toList 0).exact = mkRat 3602879701896397 (2 ^ 55) := by
  decide +kernel
example : (Decimal.ofLiteral false "12345678901234567890".toList "0".toList 0).text
    = "1.2345678901234567e+19" := by decide +kernel

end FleetCache.Number
