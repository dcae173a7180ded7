import FormulaMarkup.Decimal.Basic

/-!
# The shortest decimal text of a binary number

The text has the fewest digits that still lead back to the number, and of the texts with as many
digits it is the nearest. No exponent is written, and there is always a point.
-/

namespace FormulaMarkup.Decimal

/-- The numbers that round to a binary number, as quarters of its last place: the least, the number
itself and the greatest. The ends belong to it if its last binary digit is zero. -/
structure Neighbourhood where
  low : Nat
  value : Nat
  high : Nat
  withEnds : Bool

/-- Below a power of two the numbers are twice as dense. -/
def Neighbourhood.of (x : Binary) : Neighbourhood where
  low := 4 * x.significand - (if x.significand = Nat.pow 2 52 && x.exponent > -1074 then 1 else 2)
  value := 4 * x.significand
  high := 4 * x.significand + 2
  withEnds := x.significand % 2 = 0

/-- Brings `n * 10 ^ p` and quarters `2 ^ (q - 2)` to one unit. -/
def decimalUnits (n : Nat) (p q : Int) : Nat :=
  n * Nat.pow 10 p.toNat * Nat.pow 2 (2 - q).toNat

/-- Brings `n` quarters `2 ^ (q - 2)` to the unit of `decimalUnits`. -/
def binaryUnits (n : Nat) (p q : Int) : Nat :=
  n * Nat.pow 2 (q - 2).toNat * Nat.pow 10 (-p).toNat

def leadsBack (x : Binary) (n : Nat) (p : Int) : Bool :=
  let near := Neighbourhood.of x
  let low := binaryUnits near.low p x.exponent
  let high := binaryUnits near.high p x.exponent
  let m := decimalUnits n p x.exponent
  (low < m && m < high) || (near.withEnds && (m = low || m = high))

/-- The multiple of `10 ^ p` that leads back to the number; of two such, the nearer one. -/
def onGrid? (x : Binary) (p : Int) : Option Nat :=
  let value := binaryUnits (Neighbourhood.of x).value p x.exponent
  let unit := decimalUnits 1 p x.exponent
  let below := value / unit
  match leadsBack x below p, leadsBack x (below + 1) p with
  | true, true => some (roundDiv value unit)
  | true, false => some below
  | false, true => some (below + 1)
  | false, false => none

/-- The first grid from `10 ^ p` on, each ten times as fine as the one before, that has a multiple
leading back to the number. -/
def firstGrid (x : Binary) (p : Int) : Nat → Nat × Int
  | 0 => (0, 0)
  | fuel + 1 =>
    match onGrid? x p with
    | some n => (n, p)
    | none => firstGrid x (p - 1) fuel

def positional (n : Nat) (p : Int) : List Char :=
  let digits := Nat.toDigits 10 n
  if p ≥ 0 then
    digits ++ List.replicate p.toNat '0' ++ ['.', '0']
  else
    let places := (-p).toNat
    let padded := List.replicate (places + 1 - digits.length) '0' ++ digits
    padded.take (padded.length - places) ++ '.' :: padded.drop (padded.length - places)

/-- The shortest text of the binary number nearest to a decimal one. -/
def shortest (x : Decimal) : String :=
  let text :=
    match x.toBinary? with
    | none => ['i', 'n', 'f']
    | some ⟨0, _⟩ => ['0', '.', '0']
    | some y =>
      let (n, p) := firstGrid y 310 700
      positional n p
  String.ofList (if x.negative then '-' :: text else text)

end FormulaMarkup.Decimal
