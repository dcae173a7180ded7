/-!
# Decimal numbers and the binary numbers nearest to them
-/

namespace FormulaMarkup

/-- The number `digits * 10 ^ exponent`, or its negative. -/
structure Decimal where
  negative : Bool
  digits : Nat
  exponent : Int
  deriving DecidableEq, Repr

/-- The number `significand * 2 ^ exponent`, with 53 binary digits at most. -/
structure Binary where
  significand : Nat
  exponent : Int
  deriving DecidableEq, Repr

namespace Decimal

/-- The quotient of two numbers at the nearest natural number; of two that are as near, the even
one. -/
def roundDiv (a b : Nat) : Nat :=
  let quotient := a / b
  let rest := a % b
  if 2 * rest > b || (2 * rest = b && quotient % 2 = 1) then quotient + 1 else quotient

/-- The quotient `a / b` divided by `2 ^ exponent`, as a quotient. -/
def scale (a b : Nat) (exponent : Int) : Nat × Nat :=
  if exponent ≥ 0 then (a, b * Nat.pow 2 exponent.toNat) else (a * Nat.pow 2 (-exponent).toNat, b)

/-- The exponent at which a positive quotient has 53 binary digits in front of the point, or the
least exponent there is. -/
def binaryExponent (a b : Nat) : Int :=
  let guess := max ((a.log2 : Int) - b.log2 - 53) (-1074)
  let (c, d) := scale a b guess
  if c / d < Nat.pow 2 53 then guess else guess + 1

/-- The binary number nearest to the size of a decimal number, if it is not too large for one. -/
def toBinary? (x : Decimal) : Option Binary :=
  let magnitude := x.exponent + (Nat.toDigits 10 x.digits).length
  if x.digits = 0 || magnitude < -400 then
    some ⟨0, 0⟩
  else if magnitude > 400 then
    none
  else
    let a := x.digits * Nat.pow 10 x.exponent.toNat
    let b := Nat.pow 10 (-x.exponent).toNat
    let exponent := binaryExponent a b
    let (c, d) := scale a b exponent
    let significand := roundDiv c d
    if significand * Nat.pow 2 exponent.toNat < Nat.pow 2 1024 then some ⟨significand, exponent⟩ else none

end Decimal

end FormulaMarkup
