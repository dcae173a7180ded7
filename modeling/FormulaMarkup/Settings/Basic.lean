/-!
# Settings of the conversion
-/

namespace FormulaMarkup

inductive PrettyPrint where
  | never
  | always
  /-- only if the formula stands on a line of its own -/
  | auto
  deriving DecidableEq, Repr, Inhabited

def PrettyPrint.name : PrettyPrint → String
  | never => "never"
  | always => "always"
  | auto => "auto"

/-- Where the formula stands: within text, or on a line of its own. -/
inductive Display where
  | inline
  | block
  deriving DecidableEq, Repr, Inhabited

def Display.name : Display → String
  | inline => "inline"
  | block => "block"

/-- What the markup is to look like. The texts become attributes if they are set. -/
structure Settings where
  prettyPrint : PrettyPrint := .never
  display : Display := .inline
  xmlNamespace : Bool := false
  displayStyle : Bool := false
  mathColor : Option String := none
  mathBackground : Option String := none
  mathSize : Option String := none
  fontFamily : Option String := none
  deriving DecidableEq, Repr, Inhabited

namespace Settings

def default : Settings := {}

def isIndented (settings : Settings) : Bool :=
  match settings.prettyPrint with
  | .never => false
  | .always => true
  | .auto => settings.display = .block

end Settings

end FormulaMarkup
