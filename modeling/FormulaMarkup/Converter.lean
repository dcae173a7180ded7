import FormulaMarkup.Formula.Fragments
import FormulaMarkup.Formula.Notice
import FormulaMarkup.Formula.Parse
import FormulaMarkup.Markup.Render
import FormulaMarkup.Settings.Basic
import FormulaMarkup.Token.Lexer

/-!
# From ASCIIMath to MathML

A formula is typed as plain text, and its markup is a tree of MathML nodes. Every input has markup.
What is at fault in it is told by notices, which do not depend on the settings.
-/

namespace FormulaMarkup

def Formula.ofInput (input : String) : List Term := Formula.parse (lexemes input)

def xmlNamespace : String := "http://www.w3.org/1998/Math/MathML"

namespace Settings

def styleAttributes (settings : Settings) : Attributes where
  displaystyle := if settings.displayStyle then some "true" else none
  mathcolor := settings.mathColor
  mathbackground := settings.mathBackground
  mathsize := settings.mathSize
  fontfamily := settings.fontFamily

def mathAttributes (settings : Settings) : Attributes where
  xmlns := if settings.xmlNamespace then some FormulaMarkup.xmlNamespace else none
  display := if settings.display = .block then some "block" else none

/-- The nodes of a formula within a style and the whole. -/
def assemble (settings : Settings) (nodes : List Node) : Node :=
  ⟨.math, settings.mathAttributes, [⟨.mstyle, settings.styleAttributes, nodes, none⟩], none⟩

end Settings

/-- The tree of the markup of an input. -/
def compile (settings : Settings) (input : String) : Node :=
  settings.assemble (Formula.nodes (Formula.ofInput input))

def notices (input : String) : List Notice := Term.noticesOfList (Formula.ofInput input)

def convert (settings : Settings) (input : String) : String :=
  if settings.isIndented then
    Markup.appendDocument "" (compile settings input)
  else
    Markup.append "" 0 (compile settings input)

end FormulaMarkup
