import FormulaMarkup.Markup.Attribute
import FormulaMarkup.Markup.Element

/-!
# The nodes of presentation markup

A node is a leaf, which has a text and no children, or a container, which has no text. The type
admits a text beside children; the functions that build nodes never give both.
-/

namespace FormulaMarkup

/-- A node of the markup, with all that is below it. -/
structure Node where
  element : Element
  attributes : Attributes
  children : List Node
  text : Option String
  deriving Inhabited

/-! ## Equality -/

mutual

def Node.decEq (a b : Node) : Decidable (a = b) :=
  match a, b with
  | ⟨e, s, xs, t⟩, ⟨f, u, ys, v⟩ =>
    if h : e = f ∧ s = u ∧ t = v then
      match Node.decEqList xs ys with
      | isTrue hxs => isTrue (by obtain ⟨rfl, rfl, rfl⟩ := h; subst hxs; rfl)
      | isFalse hxs => isFalse (fun hab => hxs (by cases hab; rfl))
    else
      isFalse (fun hab => h (by cases hab; exact ⟨rfl, rfl, rfl⟩))

def Node.decEqList (xs ys : List Node) : Decidable (xs = ys) :=
  match xs, ys with
  | [], [] => isTrue rfl
  | [], _ :: _ => isFalse nofun
  | _ :: _, [] => isFalse nofun
  | x :: xs, y :: ys =>
    match Node.decEq x y, Node.decEqList xs ys with
    | isTrue hx, isTrue hxs => isTrue (by rw [hx, hxs])
    | isFalse hx, _ => isFalse (fun h => hx (by cases h; rfl))
    | _, isFalse hxs => isFalse (fun h => hxs (by cases h; rfl))

end

instance : DecidableEq Node := Node.decEq

namespace Node

/-! ## Building nodes -/

def leaf (element : Element) (text : String) : Node := ⟨element, .empty, [], some text⟩

def container (element : Element) (children : List Node) : Node :=
  ⟨element, .empty, children, none⟩

/-- A container without children. -/
def void (element : Element) : Node := container element []

def row (children : List Node) : Node := container .mrow children

/-- One node stays as it is; none or several become a row. -/
def singleOrRow : List Node → Node
  | [node] => node
  | nodes => row nodes

/-! ## Attributes and texts -/

def setAttr (node : Node) (a : Attribute) (value : String) : Node :=
  { node with attributes := node.attributes.insert a value }

def attr? (node : Node) (a : Attribute) : Option String := node.attributes.get? a

/-- Sets the text or takes it away; the children stay. -/
def setText (node : Node) (text : Option String) : Node := { node with text }

def isLeaf (node : Node) : Bool := node.text.isSome

/-- Whether the node is an operator with exactly this text. -/
def isOperator (node : Node) (text : String) : Bool :=
  node.element = .mo && node.text = some text

end Node

end FormulaMarkup
