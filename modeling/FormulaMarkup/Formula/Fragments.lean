import FormulaMarkup.Formula.Basic
import FormulaMarkup.Fragment.Script
import FormulaMarkup.Fragment.Table

/-!
# The markup of a formula
-/

namespace FormulaMarkup

/-! ## Words -/

/-- A function without arguments. Named functions and accents show their output, others their
spelling. -/
def Word.callNode (word : Word) : Node :=
  match word.role with
  | .function | .unary .accentOver | .unary .accentUnder => .leaf .mo word.symbol.output
  | _ => .leaf .mo word.spelling

def Word.barNode (word : Word) : Node :=
  .row [.leaf word.symbol.element word.symbol.output]

/-- A closing bracket that closes nothing. It shows even if it has no output. -/
def Word.strayNode (word : Word) : Node :=
  .leaf .mo (if word.symbol.output = "" then word.spelling else word.symbol.output)

def Word.limitFragment (word : Word) : Fragment :=
  match word.role with
  | .openBracket => .group word.symbol none [] false
  | .leftRight => .node word.barNode
  | _ => .node word.callNode

def Word.unaryNode (word : Word) (kind : UnaryKind) (argument : Node) : Node :=
  match kind with
  | .accentOver | .accentUnder =>
    .container word.symbol.element [argument, .leaf .mo word.symbol.output]
  | .squareRoot | .text => .container word.symbol.element [argument]
  | .variant font => (Node.container word.symbol.element [argument]).setAttr .mathvariant font.name
  | .fenced left right => .row [.leaf .mo left, argument, .leaf .mo right]

def Word.binaryNode (word : Word) (order : ArgOrder) (first second : Node) : Node :=
  match order with
  | .preserve => .container word.symbol.element [first, second]
  | .swap => .container word.symbol.element [second, first]

/-- What a group stands for. Only in a closed one can there be a table. -/
def Fragment.ofGroup (opening : Word) {role : Role} (closing : Option (WordOf role))
    (content : List Fragment) (bars : Bool) : Fragment :=
  match closing with
  | some closing => .group opening.symbol (some closing.1.symbol) (Table.resolve content) bars
  | none => .group opening.symbol none content bars

/-- A base with a chain of scripts. Without scripts the base stays as it is. -/
def Fragment.withScripts (limits : Bool) (base : Fragment) (chain : List (Marker × Node)) :
    Fragment :=
  match chain with
  | [] => base
  | script :: chain =>
    .node (ScriptLevel.attachAll limits base.single (ScriptLevel.ofChain (script :: chain)))

def Operand.takesLimits : Operand → Bool
  | .leaf word _ => word.role = .embellished
  | _ => false

/-! ## Trees -/

mutual

def Operand.fragment : Operand → Fragment
  | .number n => if n.negative then .negative n.digits else .node (.leaf .mn n.digits)
  | .text body => .node (.leaf .mtext body)
  | .character c => .node (.leaf .mi c.toString)
  | .leaf word _ => .node (.leaf word.symbol.element word.symbol.output)
  | .keyword word _ => .keyword word.symbol
  | .strayClosing word _ => .node word.strayNode
  | .beyondLimit word _ => word.limitFragment
  | .group opening _ body closing => .ofGroup opening closing (Term.fragments body) false
  | .loneBar bar _ => .node bar.barNode
  | .bars opening _ body closing => .ofGroup opening closing (Term.fragments body) true
  | .function name _ scripts argument =>
    .node (.row [
      (Fragment.withScripts false (.node (.leaf name.symbol.element name.symbol.output))
        scripts.chain).single,
      argument.fragment.single])
  | .functionAlone name _ scripts =>
    Fragment.withScripts false (.node (.leaf name.symbol.element name.symbol.output)) scripts.chain
  | .noArgument word _ => .node word.callNode
  | .verbatim _ _ body => .node (.row [.leaf .mtext body])
  | .unary word kind _ argument => .node (word.unaryNode kind argument.fragment.argument)
  | .noSecond word order _ first => .node (word.binaryNode order first.fragment.argument (.row []))
  | .binary word order _ first second =>
    .node (word.binaryNode order first.fragment.argument second.fragment.argument)

def Scripts.chain : Scripts → List (Marker × Node)
  | .done _ => []
  | .cons marker operand more => (marker, operand.fragment.argument) :: more.chain

def Term.fragment : Term → Fragment
  | .scripted base scripts =>
    Fragment.withScripts base.takesLimits base.fragment scripts.chain
  | .noDenominator base scripts =>
    Fragment.withScripts base.takesLimits base.fragment scripts.chain
  | .fraction base scripts base' scripts' =>
    .node (.container .mfrac [
      (Fragment.withScripts base.takesLimits base.fragment scripts.chain).argument,
      (Fragment.withScripts base'.takesLimits base'.fragment scripts'.chain).argument])

def Term.fragments : List Term → List Fragment
  | [] => []
  | term :: terms => term.fragment :: Term.fragments terms

end

def Formula.nodes (formula : List Term) : List Node :=
  Fragment.nodesOfList (Term.fragments formula)

end FormulaMarkup
