import FormulaMarkup.Formula.Yield
import FormulaMarkup.Proofs.OnDemand.Reader

/-!
# What a run tells of a formula

The events of a run are laid down by the formula it gives: one for each operand, with the place that
asks for it and the lexeme that begins it, one for each level of scripts, and one for each script
and each term, which a loop reads in a round of its own.
-/

namespace FormulaMarkup

namespace OnDemand

/-- An event, wherever in the input it happens. -/
inductive Outline where
  | operand (site : Site) (inBar : Bool) (groups : Nat) (first : Option Lexeme)
  | attach (sub sup : Bool)
  /-- so much is taken in the round -/
  | round (taken : Nat)

def Event.outline : Event → Outline
  | operand site inBar groups item => .operand site inBar groups item.lexeme?
  | attach sub sup => .attach sub sup
  | round before after => .round (after - before)

/-- What there is to tell where scripts are attached if it is time for them. -/
def attached (due : Bool) (slots : Formula.Slots) : List Outline :=
  if due then [.attach slots.sub slots.sup] else []

end OnDemand

open OnDemand

/-- The operand is asked for. -/
def Operand.asked (site : Site) (inBar : Bool) (groups : Nat) (operand : Operand) : Outline :=
  .operand site inBar groups operand.yield.head?

mutual

/-- What happens behind the first lexeme of an operand. -/
def Operand.outline (inBar : Bool) (groups : Nat) : Operand → List Outline
  | .number _ | .text _ | .character _ | .leaf _ _ | .keyword _ _ | .strayClosing _ _
  | .beyondLimit _ _ | .loneBar _ _ | .noArgument _ _ | .verbatim _ _ _ => []
  | .group _ _ body _ => Term.outlineOfList true false (groups + 1) body
  | .bars _ _ body _ => Term.outlineOfList true true (groups + 1) body
  | .function _ _ scripts argument =>
    scripts.outline inBar groups .empty ++
      argument.asked .argument inBar groups :: argument.outline inBar groups
  | .functionAlone _ _ scripts => scripts.outline inBar groups .empty
  | .unary _ _ _ argument | .noSecond _ _ _ argument =>
    argument.asked .argument inBar groups :: argument.outline inBar groups
  | .binary _ _ _ first second =>
    first.asked .argument inBar groups :: (first.outline inBar groups ++
      second.asked .argument inBar groups :: second.outline inBar groups)

/-- A level of scripts is attached when a script comes whose place is taken, or none comes. -/
def Scripts.outline (inBar : Bool) (groups : Nat) (slots : Formula.Slots) : Scripts → List Outline
  | .done _ => attached (slots.sub || slots.sup) slots
  | .cons marker operand more =>
    attached (slots.isTaken marker) slots ++ operand.asked .script inBar groups ::
      (operand.outline inBar groups ++
        .round (operand.yield.length + 1) :: more.outline inBar groups (slots.add marker))

def Term.outline (inGroup inBar : Bool) (groups : Nat) : Term → List Outline
  | .scripted base scripts | .noDenominator base scripts =>
    base.asked (.term inGroup) inBar groups ::
      (base.outline inBar groups ++ scripts.outline inBar groups .empty)
  | .fraction base scripts base' scripts' =>
    base.asked (.term inGroup) inBar groups ::
      (base.outline inBar groups ++ scripts.outline inBar groups .empty) ++
      base'.asked .denominator inBar groups ::
        (base'.outline inBar groups ++ scripts'.outline inBar groups .empty)

def Term.outlineOfList (inGroup inBar : Bool) (groups : Nat) : List Term → List Outline
  | [] => []
  | term :: terms =>
    term.outline inGroup inBar groups ++
      .round term.yield.length :: Term.outlineOfList inGroup inBar groups terms

end

end FormulaMarkup
