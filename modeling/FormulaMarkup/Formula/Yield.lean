import FormulaMarkup.Formula.Basic

/-!
# The lexemes that a formula is made of
-/

namespace FormulaMarkup

/-- The bracket or bar that closes a group, if it is closed. -/
def Word.closingYield {role : Role} : Option (WordOf role) → List Lexeme
  | none => []
  | some word => [.symbol word.1]

mutual

/-- The lexemes of an operand, in the order of the input. -/
def Operand.yield : Operand → List Lexeme
  | .number n => [.number n]
  | .text body => [.text body]
  | .character c => [.character c]
  | .leaf word _ | .keyword word _ | .strayClosing word _ | .beyondLimit word _ | .loneBar word _
  | .noArgument word _ => [.symbol word]
  | .group opening _ body closing =>
    .symbol opening :: (Term.yieldOfList body ++ Word.closingYield closing)
  | .bars opening _ body closing =>
    .symbol opening :: (Term.yieldOfList body ++ Word.closingYield closing)
  | .function name _ scripts argument => .symbol name :: (scripts.yield ++ argument.yield)
  | .functionAlone name _ scripts => .symbol name :: scripts.yield
  | .verbatim word _ body => [.symbol word, .text body]
  | .unary word _ _ argument => .symbol word :: argument.yield
  | .noSecond word _ _ first => .symbol word :: first.yield
  | .binary word _ _ first second => .symbol word :: (first.yield ++ second.yield)

def Scripts.yield : Scripts → List Lexeme
  | .done _ => []
  | .cons marker operand more => .symbol marker.word :: (operand.yield ++ more.yield)

/-- The lexemes of a term. A bar without a denominator belongs to what follows. -/
def Term.yield : Term → List Lexeme
  | .scripted base scripts => base.yield ++ scripts.yield
  | .noDenominator base scripts => base.yield ++ scripts.yield
  | .fraction base scripts base' scripts' =>
    base.yield ++ (scripts.yield ++ .symbol .slash :: (base'.yield ++ scripts'.yield))

def Term.yieldOfList : List Term → List Lexeme
  | [] => []
  | term :: terms => term.yield ++ Term.yieldOfList terms

end

theorem Operand.yield_ne_nil (operand : Operand) : operand.yield ≠ [] := by
  cases operand <;> exact List.cons_ne_nil _ _

end FormulaMarkup
