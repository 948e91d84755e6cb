set_option autoImplicit false

namespace FleetCache.Number

def precision : Nat := 53

/-- A quotient of natural numbers rounded to the nearest whole number, a tie going to the even one. -/
def roundDiv (num den : Nat) : Nat :=
  let quotient := num / den
  let twice := 2 * (num % den)
  if twice < den then quotient
  else if den < twice then quotient + 1
  else if quotient % 2 = 0 then quotient else quotient + 1

/-- A non-negative rational number `num / den`; the denominator is positive. -/
structure Ratio where
  num : Nat
  den : Nat

def Ratio.same (x y : Ratio) : Bool :=
  x.num * y.den == y.num * x.den

/-- The power of two by which a positive quotient is scaled to have all significant bits before the
point: the first is the factor above, the second the factor below. -/
def scaling (x : Ratio) : Nat × Nat :=
  let whole := x.num / x.den
  if 0 < whole then
    let bits := Nat.log2 whole + 1
    (Nat.pow 2 (precision - bits), Nat.pow 2 (bits - precision))
  else
    let lead := Nat.log2 (x.den / x.num)
    if Nat.pow 2 lead * x.num < x.den then (Nat.pow 2 (precision + lead), 1)
    else (Nat.pow 2 (precision + lead - 1), 1)

def nearest (x : Ratio) : Ratio :=
  if x.num = 0 then ⟨0, 1⟩ else
    let (up, down) := scaling x
    ⟨roundDiv (x.num * up) (x.den * down) * down, up⟩

def Ratio.whole (x : Ratio) : Nat :=
  x.num / x.den

def Ratio.times (x : Ratio) (n : Nat) : Ratio :=
  ⟨x.num * n, x.den⟩

def rounded (x : Rat) : Rat :=
  let y := nearest ⟨x.num.natAbs, x.den⟩
  mkRat (if x.num < 0 then -(y.num : Int) else y.num) y.den

def floatLimit : Rat := .ofInt (Int.pow 2 1024)

def rounded? (x : Rat) : Option Rat :=
  let y := rounded x
  if y < floatLimit ∧ -floatLimit < y then some y else none

example : (nearest ⟨1, 3⟩).same ⟨6004799503160661, 2 ^ 54⟩ = true := by decide +kernel
example : (nearest ⟨2 ^ 53 + 1, 1⟩).same ⟨2 ^ 53, 1⟩ = true := by decide +kernel
example : (nearest ⟨2 ^ 53 + 3, 1⟩).same ⟨2 ^ 53 + 4, 1⟩ = true := by decide +kernel
example : (nearest ⟨1, 10⟩).same ⟨3602879701896397, 2 ^ 55⟩ = true := by decide +kernel

theorem roundDiv_mul_self (n den : Nat) (h : 0 < den) : roundDiv (n * den) den = n := by
  simp [roundDiv, Nat.mul_div_cancel n h, h]

end FleetCache.Number
