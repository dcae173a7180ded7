import FormulaMarkup.Markup.Attribute
import FormulaMarkup.Markup.Element

/-!
# Symbols: what the known words and marks of a formula stand for
-/

namespace FormulaMarkup

/-- What a function of one argument does with it. -/
inductive UnaryKind where
  | accentOver
  | accentUnder
  | squareRoot
  | text
  | variant (font : FontVariant)
  /-- puts the argument between two fixed delimiters -/
  | fenced (left right : String)
  deriving DecidableEq, Repr

/-- Whether the two arguments of a function change places. -/
inductive ArgOrder where
  | preserve
  | swap
  deriving DecidableEq, Repr

/-- What part a symbol plays in a formula. -/
inductive Role where
  | identifier
  | operator
  | openBracket
  | closeBracket
  /-- the vertical bar, which may open or close -/
  | leftRight
  /-- a named function such as the sine -/
  | function
  | unary (kind : UnaryKind)
  | binary (order : ArgOrder)
  /-- a large operator, which takes its limits under and over it -/
  | embellished
  /-- a word with space on both sides -/
  | wordOperator
  deriving DecidableEq, Repr

/-- The meaning of a symbol. For a leaf, `element` and `output` are the leaf itself. For a function,
`element` is what is built around the arguments and `output` the name or the accent. -/
structure Symbol where
  element : Element
  output : String
  role : Role
  deriving DecidableEq, Repr

namespace Symbol

/-! ## The kinds of symbols -/

def identifier (output : String) : Symbol := ⟨.mi, output, .identifier⟩

/-- An operand that looks like an operator, such as infinity. -/
def constant (output : String) : Symbol := ⟨.mo, output, .identifier⟩

def operator (output : String) : Symbol := ⟨.mo, output, .operator⟩

def largeOperator (output : String) : Symbol := ⟨.mo, output, .embellished⟩

def wordOperator (output : String) : Symbol := ⟨.mo, output, .wordOperator⟩

def openBracket (output : String) : Symbol := ⟨.mo, output, .openBracket⟩

def closeBracket (output : String) : Symbol := ⟨.mo, output, .closeBracket⟩

def bar (output : String) : Symbol := ⟨.mo, output, .leftRight⟩

def function (name : String) : Symbol := ⟨.mo, name, .function⟩

def accentOver (accent : String) : Symbol := ⟨.mover, accent, .unary .accentOver⟩

def accentUnder (accent : String) : Symbol := ⟨.munder, accent, .unary .accentUnder⟩

def squareRoot (name : String) : Symbol := ⟨.msqrt, name, .unary .squareRoot⟩

def text (name : String) : Symbol := ⟨.mtext, name, .unary .text⟩

def font (name : String) (variant : FontVariant) : Symbol :=
  ⟨.mstyle, name, .unary (.variant variant)⟩

def fenced (name left right : String) : Symbol := ⟨.mrow, name, .unary (.fenced left right)⟩

def binary (element : Element) (name : String) (order : ArgOrder) : Symbol :=
  ⟨element, name, .binary order⟩

end Symbol

end FormulaMarkup
