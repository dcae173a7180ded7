import FormulaMarkup.Symbol.Table
import FormulaMarkup.Text.Letter

/-!
# Tokens: the pieces of a formula

A lexeme is what a token says and a token is a lexeme with its place in the input.
-/

namespace FormulaMarkup

/-- A decimal number. Its digits may have a point among them or in front. -/
structure Numeral where
  negative : Bool
  digits : String
  nonempty : digits ≠ ""
  deriving DecidableEq

def Numeral.raw (n : Numeral) : String := if n.negative then "-" ++ n.digits else n.digits

inductive Lexeme where
  | number (n : Numeral)
  /-- verbatim text without its delimiters -/
  | text (body : String)
  | symbol (word : Word)
  /-- a character that begins no word of the table -/
  | character (c : Char)
  deriving DecidableEq

inductive TokenKind where
  | number
  | word
  | punctuation
  | text
  deriving DecidableEq, Repr

namespace Lexeme

/-- The lexeme as it is written, without the delimiters of a text. -/
def raw : Lexeme → String
  | number n => n.raw
  | text body => body
  | symbol word => word.spelling
  | character c => c.toString

def symbol? : Lexeme → Option Symbol
  | symbol word => some word.symbol
  | _ => none

def role? (x : Lexeme) : Option Role := x.symbol?.map (·.role)

theorem role?_symbol (word : Word) : (symbol word).role? = some word.role := rfl

/-- Symbols and characters are words if they begin with a letter. -/
def kind : Lexeme → TokenKind
  | number _ => .number
  | text _ => .text
  | symbol word => if word.spelling.toList.head?.any Text.isLetter then .word else .punctuation
  | character c => if Text.isLetter c then .word else .punctuation

/-- Whether the lexeme can be the left operand of a minus sign after it. -/
def isOperand : Lexeme → Bool
  | number _ | text _ | character _ => true
  | symbol word =>
    match word.role with
    | .identifier | .closeBracket | .leftRight => true
    | _ => false

/-- Whether a bracket after the lexeme opens verbatim text. -/
def announcesText : Lexeme → Bool
  | symbol word => word.role = .unary .text
  | _ => false

end Lexeme

/-- A lexeme and the part of the input that it covers, delimiters included, in UTF-8 code units. -/
structure Token where
  lexeme : Lexeme
  start : Nat
  stop : Nat
  deriving DecidableEq

end FormulaMarkup
