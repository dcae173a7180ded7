/-!
# The attributes of a node

A node has at most one value for each attribute, and they are always listed in one order.
-/

namespace FormulaMarkup

inductive Attribute where
  | xmlns
  | display
  | displaystyle
  | mathvariant
  | mathcolor
  | mathbackground
  | mathsize
  | fontfamily
  | columnalign
  | width
  deriving DecidableEq, Repr, Inhabited

namespace Attribute

def name : Attribute → String
  | xmlns => "xmlns"
  | display => "display"
  | displaystyle => "displaystyle"
  | mathvariant => "mathvariant"
  | mathcolor => "mathcolor"
  | mathbackground => "mathbackground"
  | mathsize => "mathsize"
  | fontfamily => "fontfamily"
  | columnalign => "columnalign"
  | width => "width"

/-- The attributes in the order in which a node lists them. -/
def all : List Attribute :=
  [xmlns, display, displaystyle, mathvariant, mathcolor, mathbackground, mathsize, fontfamily,
    columnalign, width]

def ofName? (s : String) : Option Attribute := all.find? (·.name = s)

theorem mem_all (a : Attribute) : a ∈ all := by cases a <;> decide

theorem ofName?_name (a : Attribute) : ofName? a.name = some a := by cases a <;> decide

end Attribute

/-- The values of the attributes of one node. -/
structure Attributes where
  xmlns : Option String := none
  display : Option String := none
  displaystyle : Option String := none
  mathvariant : Option String := none
  mathcolor : Option String := none
  mathbackground : Option String := none
  mathsize : Option String := none
  fontfamily : Option String := none
  columnalign : Option String := none
  width : Option String := none
  deriving DecidableEq, Repr, Inhabited

namespace Attributes

def empty : Attributes := {}

def get? (s : Attributes) : Attribute → Option String
  | .xmlns => s.xmlns
  | .display => s.display
  | .displaystyle => s.displaystyle
  | .mathvariant => s.mathvariant
  | .mathcolor => s.mathcolor
  | .mathbackground => s.mathbackground
  | .mathsize => s.mathsize
  | .fontfamily => s.fontfamily
  | .columnalign => s.columnalign
  | .width => s.width

def insert (s : Attributes) (a : Attribute) (value : String) : Attributes :=
  match a with
  | .xmlns => { s with xmlns := some value }
  | .display => { s with display := some value }
  | .displaystyle => { s with displaystyle := some value }
  | .mathvariant => { s with mathvariant := some value }
  | .mathcolor => { s with mathcolor := some value }
  | .mathbackground => { s with mathbackground := some value }
  | .mathsize => { s with mathsize := some value }
  | .fontfamily => { s with fontfamily := some value }
  | .columnalign => { s with columnalign := some value }
  | .width => { s with width := some value }

/-- The attributes that are set, with their values. -/
def toList (s : Attributes) : List (Attribute × String) :=
  Attribute.all.filterMap fun a => (s.get? a).map (a, ·)

def insert? (s : Attributes) (a : Attribute) (value : Option String) : Attributes :=
  match value with
  | none => s
  | some value => s.insert a value

theorem get?_insert (s : Attributes) (a b : Attribute) (value : String) :
    (s.insert a value).get? b = if b = a then some value else s.get? b := by
  cases a <;> cases b <;> rfl

theorem ext_get? {s t : Attributes} (h : ∀ a, s.get? a = t.get? a) : s = t := by
  obtain ⟨⟩ := s
  obtain ⟨⟩ := t
  simp only [mk.injEq]
  exact ⟨h .xmlns, h .display, h .displaystyle, h .mathvariant, h .mathcolor, h .mathbackground,
    h .mathsize, h .fontfamily, h .columnalign, h .width⟩

end Attributes

/-- The values of `mathvariant` that the font commands choose. -/
inductive FontVariant where
  | bold
  | doubleStruck
  | script
  | monospace
  | fraktur
  | sansSerif
  deriving DecidableEq, Repr, Inhabited

def FontVariant.name : FontVariant → String
  | bold => "bold"
  | doubleStruck => "double-struck"
  | script => "script"
  | monospace => "monospace"
  | fraktur => "fraktur"
  | sansSerif => "sans-serif"

end FormulaMarkup
