import FormulaMarkup.Formula.Basic
import FormulaMarkup.Markup.Node

/-!
# Chains of scripts

A chain is cut into levels from its beginning: a level takes scripts as long as no two of them are
of one kind. Each level is attached to what the levels before it make up, so the second exponent in
`x^2^3` applies to the whole power.
-/

namespace FormulaMarkup

/-- The scripts that are attached to a base at once. -/
inductive ScriptLevel where
  | sub (node : Node)
  | sup (node : Node)
  | both (sub sup : Node)

namespace ScriptLevel

def one : Marker → Node → ScriptLevel
  | .sub, node => sub node
  | .sup, node => sup node

def ofChain : List (Marker × Node) → List ScriptLevel
  | [] => []
  | [(marker, node)] => [one marker node]
  | (.sub, a) :: (.sup, b) :: chain => both a b :: ofChain chain
  | (.sup, a) :: (.sub, b) :: chain => both b a :: ofChain chain
  | (marker, a) :: next :: chain => one marker a :: ofChain (next :: chain)

/-- The base with its scripts. As limits they stand under and over the base, else beside it. -/
def attach (limits : Bool) (base : Node) : ScriptLevel → Node
  | sub a => .container (if limits then .munder else .msub) [base, a]
  | sup b => .container (if limits then .mover else .msup) [base, b]
  | both a b => .container (if limits then .munderover else .msubsup) [base, a, b]

/-- The base with a chain of scripts, of which only the first level can be limits. -/
def attachAll (limits : Bool) (base : Node) : List ScriptLevel → Node
  | [] => base
  | level :: levels => levels.foldl (attach false) (level.attach limits base)

end ScriptLevel

end FormulaMarkup
