import FormulaMarkup.Decimal.Shortest
import FormulaMarkup.Text.Quoted

/-!
# Values that settings may be given as
-/

namespace FormulaMarkup

inductive Value where
  | null
  | boolean (b : Bool)
  | integer (n : Int)
  | float (x : Decimal)
  /-- an infinite number, or none at all -/
  | nonfinite
  /-- a date, a time or both -/
  | moment
  | string (s : String)
  | sequence (items : List Value)
  | table (entries : List (String × Value))
  deriving Inhabited

namespace Value

/-- A word of a message between backquotes. -/
def marked (s : String) : String := "\x60" ++ s ++ "\x60"

def describe : Value → String
  | null => "null"
  | boolean b => "boolean " ++ marked (if b then "true" else "false")
  | integer n => "integer " ++ marked (toString n)
  | float x => "floating point " ++ marked x.shortest
  | nonfinite => "floating point"
  | string s => "string " ++ Text.quoted s
  | sequence _ => "sequence"
  | moment | table _ => "map"

end Value

end FormulaMarkup
