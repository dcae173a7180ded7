/-!
# TOML: spaces, comments and line ends
-/

namespace FormulaMarkup.Toml

/-- A reader takes a beginning of the text and leaves the rest. -/
abbrev Reader (α : Type) : Type := List Char → Option (α × List Char)

/-- A character that comments and strings may hold as it is: no control character but the tab. -/
def isPlain (c : Char) : Bool := c = '\t' || (' ' ≤ c && c ≠ '\x7f')

def skipSpaces (s : List Char) : List Char := s.dropWhile fun c => c = ' ' || c = '\t'

/-- The text after a line end, if it begins with one. -/
def afterLineEnd? : List Char → Option (List Char)
  | '\n' :: s => some s
  | '\r' :: '\n' :: s => some s
  | _ => none

def skipComment (s : List Char) : List Char :=
  match skipSpaces s with
  | '#' :: t => t.dropWhile isPlain
  | t => t

/-- The text after the current line, if nothing but spaces and a comment is left on it. -/
def afterLine? (s : List Char) : Option (List Char) :=
  match skipComment s with
  | [] => some []
  | t => afterLineEnd? t

/-- Skips up to `n` lines that hold nothing but spaces and comments. -/
def skipLinesUpTo : Nat → List Char → List Char
  | 0, s => s
  | n + 1, s =>
    match afterLineEnd? (skipComment s) with
    | some t => skipLinesUpTo n t
    | none => skipComment s

def skipLines (s : List Char) : List Char := skipLinesUpTo (s.length + 1) s

end FormulaMarkup.Toml
