import FormulaMarkup.Toml.Layout

/-!
# TOML: dates and times

A moment is a date, a time of day, or both with a letter or a space between them; only in the last
case an offset may follow. Seconds may be left out.
-/

namespace FormulaMarkup.Toml

/-- The number of exactly `n` digits, after `value`. -/
def fixedNumber (value : Nat) : Nat → Reader Nat
  | 0, s => some (value, s)
  | _ + 1, [] => none
  | n + 1, c :: s =>
    if c.isDigit then fixedNumber (10 * value + (c.toNat - '0'.toNat)) n s else none

def twoDigits (low high : Nat) : Reader Nat := fun s =>
  match fixedNumber 0 2 s with
  | some (n, t) => if low ≤ n && n ≤ high then some (n, t) else none
  | none => none

def afterChar? (c : Char) : List Char → Option (List Char)
  | d :: s => if d = c then some s else none
  | [] => none

def isLeapYear (year : Nat) : Bool := year % 4 = 0 && (year % 100 ≠ 0 || year % 400 = 0)

def daysIn (year month : Nat) : Nat :=
  match month with
  | 2 => if isLeapYear year then 29 else 28
  | 4 | 6 | 9 | 11 => 30
  | _ => 31

def afterDate? (s : List Char) : Option (List Char) := do
  let (year, s) ← fixedNumber 0 4 s
  let s ← afterChar? '-' s
  let (month, s) ← twoDigits 1 12 s
  let s ← afterChar? '-' s
  let (_, s) ← twoDigits 1 (daysIn year month) s
  return s

/-- The text after a fraction of a second, if there is one. -/
def afterFraction? : List Char → Option (List Char)
  | '.' :: c :: s => if c.isDigit then some (s.dropWhile Char.isDigit) else none
  | '.' :: _ => none
  | s => some s

def afterTime? (s : List Char) : Option (List Char) := do
  let (_, s) ← twoDigits 0 23 s
  let s ← afterChar? ':' s
  let (_, s) ← twoDigits 0 59 s
  match s with
  | ':' :: s =>
    let (_, s) ← twoDigits 0 60 s
    afterFraction? s
  | s => some s

/-- The text after an offset, if there is one. -/
def afterOffset? : List Char → Option (List Char)
  | 'Z' :: s | 'z' :: s => some s
  | '+' :: s | '-' :: s => do
    let (_, s) ← twoDigits 0 23 s
    let s ← afterChar? ':' s
    let (_, s) ← twoDigits 0 59 s
    return s
  | s => some s

def startsDate (s : List Char) : Bool := (fixedNumber 0 4 s).any (·.2.head? = some '-')

def startsTime (s : List Char) : Bool := (fixedNumber 0 2 s).any (·.2.head? = some ':')

/-- The text after a date and the time of day that may follow it. -/
def afterDateTime? (s : List Char) : Option (List Char) := do
  match ← afterDate? s with
  | 'T' :: t | 't' :: t => afterOffset? (← afterTime? t)
  | ' ' :: c :: t =>
    if c.isDigit then afterOffset? (← afterTime? (c :: t)) else some (' ' :: c :: t)
  | t => some t

end FormulaMarkup.Toml
