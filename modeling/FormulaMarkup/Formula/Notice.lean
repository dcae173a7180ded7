import FormulaMarkup.Formula.Basic
import FormulaMarkup.Text.Quoted

/-!
# Notices: what a formula has that is at fault
-/

namespace FormulaMarkup

/-- A fault of the input, for which something plainer stands in the markup. -/
inductive Notice where
  | noDenominator
  | noScriptOperand
  | scriptLimit
  | strayClosing (spelling : String)
  | nestingLimit (spelling : String)
  | unclosed (output : String)
  /-- a function without its only argument -/
  | noArgument (name : String)
  /-- a function without either of its two arguments -/
  | noArguments (name : String)
  | noSecondArgument (name : String)
  deriving DecidableEq, Repr

def Notice.message : Notice → String
  | noDenominator => "fraction bar without denominator"
  | noScriptOperand => "script marker without operand"
  | scriptLimit => "nesting limit reached in scripts"
  | strayClosing spelling =>
    "closing bracket " ++ Text.quoted spelling ++ " without opening bracket"
  | nestingLimit spelling => "nesting limit reached at " ++ Text.quoted spelling
  | unclosed output => "unclosed group opened by " ++ Text.quoted output
  | noArgument name => "function " ++ Text.quoted name ++ " without argument"
  | noArguments name => "function " ++ Text.quoted name ++ " without arguments"
  | noSecondArgument name => "function " ++ Text.quoted name ++ " without second argument"

def ScriptsEnd.notices : ScriptsEnd → List Notice
  | complete => []
  | noOperand => [.noScriptOperand]
  | limit => [.scriptLimit]

def Notice.ofGroup (opening : Word) {role : Role} : Option (WordOf role) → List Notice
  | some _ => []
  | none => [.unclosed opening.symbol.output]

def Notice.ofCall (word : Word) : Notice :=
  match word.role with
  | .binary _ => .noArguments word.spelling
  | _ => .noArgument word.spelling

mutual

/-- The notices on an operand, in the order in which its parts end. -/
def Operand.notices : Operand → List Notice
  | .number _ | .text .. | .character .. | .leaf .. | .keyword .. | .loneBar .. | .verbatim .. => []
  | .strayClosing word _ => [.strayClosing word.spelling]
  | .beyondLimit word _ => [.nestingLimit word.spelling]
  | .group opening _ body closing => Term.noticesOfList body ++ Notice.ofGroup opening closing
  | .bars opening _ body closing => Term.noticesOfList body ++ Notice.ofGroup opening closing
  | .function _ _ scripts argument => scripts.notices ++ argument.notices
  | .functionAlone name _ scripts => scripts.notices ++ [.noArgument name.symbol.output]
  | .noArgument word _ => [Notice.ofCall word]
  | .unary _ _ _ argument => argument.notices
  | .noSecond word _ _ first => first.notices ++ [.noSecondArgument word.spelling]
  | .binary _ _ _ first second => first.notices ++ second.notices

def Scripts.notices : Scripts → List Notice
  | .done reason => reason.notices
  | .cons _ operand more => operand.notices ++ more.notices

def Term.notices : Term → List Notice
  | .scripted base scripts => base.notices ++ scripts.notices
  | .noDenominator base scripts => base.notices ++ (scripts.notices ++ [.noDenominator])
  | .fraction base scripts base' scripts' =>
    base.notices ++ (scripts.notices ++ (base'.notices ++ scripts'.notices))

def Term.noticesOfList : List Term → List Notice
  | [] => []
  | term :: terms => term.notices ++ Term.noticesOfList terms

end

end FormulaMarkup
