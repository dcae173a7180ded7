/-!
# The elements of presentation markup
-/

namespace FormulaMarkup

/-- What a node of the markup is. -/
inductive Element where
  | math
  | mstyle
  | mi
  | mn
  | mo
  | mrow
  | mfrac
  | msub
  | msup
  | msubsup
  | munder
  | mover
  | munderover
  | msqrt
  | mroot
  | mtable
  | mtr
  | mtd
  | mtext
  | mspace
  deriving DecidableEq, Repr, Inhabited

namespace Element

/-- The name of the element between the angle brackets. -/
def name : Element → String
  | math => "math"
  | mstyle => "mstyle"
  | mi => "mi"
  | mn => "mn"
  | mo => "mo"
  | mrow => "mrow"
  | mfrac => "mfrac"
  | msub => "msub"
  | msup => "msup"
  | msubsup => "msubsup"
  | munder => "munder"
  | mover => "mover"
  | munderover => "munderover"
  | msqrt => "msqrt"
  | mroot => "mroot"
  | mtable => "mtable"
  | mtr => "mtr"
  | mtd => "mtd"
  | mtext => "mtext"
  | mspace => "mspace"

def all : List Element :=
  [math, mstyle, mi, mn, mo, mrow, mfrac, msub, msup, msubsup, munder, mover, munderover, msqrt,
    mroot, mtable, mtr, mtd, mtext, mspace]

def ofName? (s : String) : Option Element := all.find? (·.name = s)

theorem ofName?_name (e : Element) : ofName? e.name = some e := by cases e <;> decide

end Element

end FormulaMarkup
