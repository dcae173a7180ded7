import FormulaMarkup.Settings.Value
import FormulaMarkup.Toml.Text

/-!
# TOML: numbers
-/

namespace FormulaMarkup.Toml

/-- The digits of a number, in which single underscores may stand between digits. -/
def digits? (isDigit : Char → Bool) (afterDigit : Bool) : List Char → Option (List Char)
  | [] => if afterDigit then some [] else none
  | c :: s =>
    if c = '_' then
      if afterDigit then digits? isDigit false s else none
    else if isDigit c then
      (digits? isDigit true s).map (c :: ·)
    else
      none

def ofDigits (base : Nat) (digits : List Char) : Nat :=
  digits.foldl (fun n c => base * n + (hexDigit? c).getD 0) 0

/-- A number is negative only after a minus sign. -/
def sign : List Char → Bool × List Char
  | '-' :: s => (true, s)
  | '+' :: s => (false, s)
  | s => (false, s)

/-- Integers have up to 128 bits. -/
def integer? (negative : Bool) (n : Nat) : Option Value :=
  if negative then
    if n ≤ Nat.pow 2 127 then some (.integer (-n)) else none
  else
    if n < Nat.pow 2 128 then some (.integer n) else none

/-- An integer in another base than ten. -/
def integerInBase? (base : Nat) (s : List Char) : Option Value := do
  let digits ← digits? (fun c => (hexDigit? c).any (· < base)) false s
  integer? false (ofDigits base digits)

/-- A number with a fraction or an exponent. It must not be too large. -/
def float? (negative : Bool) (whole fraction : List Char) (exponent : Int) : Option Value :=
  let x : Decimal := ⟨negative, ofDigits 10 (whole ++ fraction), exponent - fraction.length⟩
  if x.toBinary?.isSome then some (.float x) else none

def exponent? (s : List Char) : Option Int :=
  let (negative, body) := sign s
  match digits? Char.isDigit false body with
  | some digits =>
    let n := ofDigits 10 digits
    some (if negative then -(n : Int) else n)
  | none => none

def isDecimalChar (c : Char) : Bool := c.isDigit || c = '_'

def isExponentMark (c : Char) : Bool := c = 'e' || c = 'E'

/-- A number in base ten. Its first digit is no zero unless it is the only one before the point. -/
def decimal? (s : List Char) : Option Value := do
  let (negative, body) := sign s
  let whole ← digits? Char.isDigit false (body.takeWhile isDecimalChar)
  if whole.length > 1 && whole.head? = some '0' then
    none
  else
    match body.dropWhile isDecimalChar with
    | [] => integer? negative (ofDigits 10 whole)
    | '.' :: t =>
      let fraction ← digits? Char.isDigit false (t.takeWhile isDecimalChar)
      match t.dropWhile isDecimalChar with
      | [] => float? negative whole fraction 0
      | c :: u => if isExponentMark c then float? negative whole fraction (← exponent? u) else none
    | c :: t => if isExponentMark c then float? negative whole [] (← exponent? t) else none

/-- The value of a bare word: a boolean or a number. -/
def bareValue? (s : List Char) : Option Value :=
  match s with
  | ['t', 'r', 'u', 'e'] => some (.boolean true)
  | ['f', 'a', 'l', 's', 'e'] => some (.boolean false)
  | '0' :: 'x' :: t => integerInBase? 16 t
  | '0' :: 'o' :: t => integerInBase? 8 t
  | '0' :: 'b' :: t => integerInBase? 2 t
  | s =>
    match (sign s).2 with
    | ['i', 'n', 'f'] | ['n', 'a', 'n'] => some .nonfinite
    | _ => decimal? s

end FormulaMarkup.Toml
