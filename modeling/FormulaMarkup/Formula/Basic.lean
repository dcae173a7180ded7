import FormulaMarkup.Token.Basic

/-!
# Formulas: the tree that the tokens of an input make up

Every list of lexemes is a formula. What is left open or incomplete has a form of its own here, so
the tree tells where the input is at fault.
-/

namespace FormulaMarkup

/-! ## Roles of words -/

namespace Role

/-- A word that is an operand by itself. -/
def isLeaf : Role → Bool
  | identifier | operator | embellished => true
  | _ => false

def isCall : Role → Bool
  | unary _ | binary _ => true
  | _ => false

/-- A word that begins a deeper level of the formula. -/
def nests : Role → Bool
  | openBracket | leftRight | function | unary _ | binary _ => true
  | _ => false

end Role

abbrev WordOf (role : Role) : Type := {word : Word // word.role = role}

/-! ## Marks between operands -/

def Word.slash : Word := ⟨"/", .operator "/", by decide⟩

inductive Marker where
  | sub
  | sup
  deriving DecidableEq, Repr

namespace Marker

def word : Marker → Word
  | sub => ⟨"_", .operator "_", by decide⟩
  | sup => ⟨"^", .operator "^", by decide⟩

end Marker

def Lexeme.marker? (x : Lexeme) : Option Marker :=
  if x = .symbol Marker.sub.word then some .sub
  else if x = .symbol Marker.sup.word then some .sup
  else none

theorem Lexeme.eq_of_marker? {x : Lexeme} {m : Marker} (h : x.marker? = some m) :
    x = .symbol m.word := by
  unfold marker? at h
  split at h
  · next hx => cases h; exact hx
  · split at h
    · next hx => cases h; exact hx
    · cases h

/-! ## The tree -/

/-- Why a chain of scripts ends where it does. -/
inductive ScriptsEnd where
  | complete
  /-- a marker follows, but no operand -/
  | noOperand
  /-- one more script would nest too deeply -/
  | limit
  deriving DecidableEq, Repr

mutual

/-- What a script, a fraction or a function can apply to. -/
inductive Operand where
  | number (n : Numeral)
  | text (body : String)
  | character (c : Char)
  | leaf (word : Word) (role : word.role.isLeaf = true)
  | keyword (word : Word) (role : word.role = .wordOperator)
  /-- a closing bracket that nothing has opened -/
  | strayClosing (word : Word) (role : word.role = .closeBracket)
  /-- a word that would begin too deep a level, and so begins none -/
  | beyondLimit (word : Word) (role : word.role.nests = true)
  | group (opening : Word) (role : opening.role = .openBracket) (body : List Term)
    (closing : Option (WordOf .closeBracket))
  /-- a bar to which no other belongs -/
  | loneBar (bar : Word) (role : bar.role = .leftRight)
  | bars (opening : Word) (role : opening.role = .leftRight) (body : List Term)
    (closing : Option (WordOf .leftRight))
  | function (name : Word) (role : name.role = .function) (scripts : Scripts) (argument : Operand)
  | functionAlone (name : Word) (role : name.role = .function) (scripts : Scripts)
  /-- a function of one argument or two that has none -/
  | noArgument (word : Word) (role : word.role.isCall = true)
  /-- a function that takes verbatim text -/
  | verbatim (word : Word) (role : word.role = .unary .text) (body : String)
  | unary (word : Word) (kind : UnaryKind) (role : word.role = .unary kind) (argument : Operand)
  /-- a function of two arguments that has only one -/
  | noSecond (word : Word) (order : ArgOrder) (role : word.role = .binary order) (first : Operand)
  | binary (word : Word) (order : ArgOrder) (role : word.role = .binary order)
    (first second : Operand)

inductive Scripts where
  | done (reason : ScriptsEnd)
  | cons (marker : Marker) (operand : Operand) (more : Scripts)

/-- A piece of a sequence: an operand with scripts, or a fraction of two of them. -/
inductive Term where
  | scripted (base : Operand) (scripts : Scripts)
  /-- an operand in front of a fraction bar, but nothing after the bar -/
  | noDenominator (base : Operand) (scripts : Scripts)
  | fraction (numerator : Operand) (numeratorScripts : Scripts) (denominator : Operand)
    (denominatorScripts : Scripts)

end

end FormulaMarkup
