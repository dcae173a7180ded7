import FormulaMarkup.Token.Basic

/-!
# Recognising one lexeme

A lexeme is looked for at the first character that is not a blank. Verbatim text comes first, then
numbers, then the longest word of the table, and any other character is a lexeme of its own.
-/

namespace FormulaMarkup

namespace Scan

/-! ## Verbatim text -/

/-- The closing bracket of verbatim text that opens with `c`. -/
def closing? : Char → Option Char
  | '(' => some ')'
  | '[' => some ']'
  | '\x7b' => some '\x7d'
  | _ => none

/-- The text up to its closing bracket, and whether there is one. Pairs of the same brackets inside
belong to the text; `depth` of them are open. -/
def untilClosing (opening closing : Char) (depth : Nat) : List Char → List Char × Bool
  | [] => ([], false)
  | c :: s =>
    if c = opening then
      let (body, closed) := untilClosing opening closing (depth + 1) s
      (c :: body, closed)
    else if c = closing then
      match depth with
      | 0 => ([], true)
      | depth + 1 =>
        let (body, closed) := untilClosing opening closing depth s
        (c :: body, closed)
    else
      let (body, closed) := untilClosing opening closing depth s
      (c :: body, closed)

/-- The text up to the next double quote, and whether there is one. -/
def untilQuote : List Char → List Char × Bool
  | [] => ([], false)
  | c :: s =>
    if c = '\x22' then
      ([], true)
    else
      let (body, closed) := untilQuote s
      (c :: body, closed)

/-! ## Numbers -/

/-- The longest beginning that consists of digits, then perhaps a point, then at least one digit.
It is empty if there is none. -/
def unsigned (s : List Char) : List Char :=
  match s.dropWhile Char.isDigit with
  | '.' :: t =>
    match t.takeWhile Char.isDigit with
    | [] => s.takeWhile Char.isDigit
    | c :: decimals => s.takeWhile Char.isDigit ++ '.' :: c :: decimals
  | _ => s.takeWhile Char.isDigit

def numeral? (negative : Bool) : List Char → Option Numeral
  | [] => none
  | c :: digits => some ⟨negative, String.ofList (c :: digits), by simp⟩

/-- The number that the text begins with. A minus sign belongs to it only if no operand stands
before. -/
def number? (operandBefore : Bool) (s : List Char) : Option Numeral :=
  match operandBefore, s with
  | false, '-' :: t => numeral? true (unsigned t)
  | _, s => numeral? false (unsigned s)

/-! ## Lexemes -/

/-- What the lexeme before says about the next one. -/
structure Context where
  operandBefore : Bool
  textAnnounced : Bool
  deriving DecidableEq, Repr

/-- At the start there is no operand. -/
def Context.start : Context := ⟨false, false⟩

def Context.after (x : Lexeme) : Context := ⟨x.isOperand, x.announcesText⟩

/-- Verbatim text, which takes its closing delimiter along. -/
def ofText (text : List Char × Bool) : Lexeme × Nat :=
  (.text (String.ofList text.1), text.1.length + text.2.toNat)

/-- The lexeme at the beginning of `c :: s`, where `c` is no blank, and how many characters of `s`
belong to it. -/
def lexeme (context : Context) (c : Char) (s : List Char) : Lexeme × Nat :=
  match if context.textAnnounced then closing? c else none with
  | some closing => ofText (untilClosing c closing 0 s)
  | none =>
    if c = '\x22' then
      ofText (untilQuote s)
    else
      match number? context.operandBefore (c :: s) with
      | some n => (.number n, n.raw.length - 1)
      | none =>
        match Word.longest? (c :: s) with
        | some word => (.symbol word, word.spelling.length - 1)
        | none => (.character c, 0)

end Scan

end FormulaMarkup
