import FormulaMarkup.Markup.Escape
import FormulaMarkup.Markup.Node

/-!
# Writing nodes as markup

The compact layout has no blanks between tags. In the indented layout each node starts on a line of
its own, and the end tag of a container that has children does too.
-/

namespace FormulaMarkup.Markup

/-- Where a node stands: in the compact layout, or at a level of the indented one. -/
inductive Layout where
  | compact
  | level (n : Nat)
  deriving DecidableEq, Repr

namespace Layout

def indent (n : Nat) : List Char := List.replicate (4 * n) ' '

def lineStart : Layout → List Char
  | compact => []
  | level n => '\n' :: indent n

def below : Layout → Layout
  | compact => compact
  | level n => level (n + 1)

/-- Level zero stands for the compact layout. -/
def ofIndent : Nat → Layout
  | 0 => compact
  | n + 1 => level (n + 1)

end Layout

def renderAttribute (a : Attribute × String) : List Char :=
  ' ' :: a.1.name.toList ++ '=' :: '\x22' :: escapeAttribute a.2.toList ++ ['\x22']

def startTag (element : Element) (attributes : Attributes) : List Char :=
  '<' :: element.name.toList ++ attributes.toList.flatMap renderAttribute ++ ['>']

def endTag (element : Element) : List Char := '<' :: '/' :: element.name.toList ++ ['>']

mutual

/-- The node, from its start tag to its end tag. Of a node with a text the children do not show. -/
def renderElement (layout : Layout) : Node → List Char
  | ⟨element, attributes, _, some text⟩ =>
    startTag element attributes ++ (escapeContent text.toList ++ endTag element)
  | ⟨element, attributes, [], none⟩ => startTag element attributes ++ endTag element
  | ⟨element, attributes, child :: children, none⟩ =>
    startTag element attributes ++
      (renderEach layout.below (child :: children) ++ (layout.lineStart ++ endTag element))

def renderEach (layout : Layout) : List Node → List Char
  | [] => []
  | node :: nodes => layout.lineStart ++ (renderElement layout node ++ renderEach layout nodes)

end

/-- The node at an indentation of `indent` levels; without any, in the compact layout. -/
def render (indent : Nat) (node : Node) : List Char :=
  (Layout.ofIndent indent).lineStart ++ renderElement (Layout.ofIndent indent) node

/-- The node as the root of an indented document, which no line break precedes. -/
def renderDocument (node : Node) : List Char := renderElement (.level 0) node

/-- Writes a node to the end of `output`, at an indentation of `indent` levels. -/
def append (output : String) (indent : Nat) (node : Node) : String :=
  output ++ String.ofList (render indent node)

/-- Writes a node to the end of `output`, as the root of an indented document. -/
def appendDocument (output : String) (node : Node) : String :=
  output ++ String.ofList (renderDocument node)

end FormulaMarkup.Markup
