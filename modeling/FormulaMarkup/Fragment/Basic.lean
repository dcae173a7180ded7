import FormulaMarkup.Markup.Node
import FormulaMarkup.Symbol.Basic

/-!
# Fragments: pieces of markup whose last form depends on where they stand

In a row a group keeps its brackets and a negative number is two nodes; as an argument a group
loses its brackets and a negative number becomes a row.
-/

namespace FormulaMarkup

/-- A piece of markup that has not been given its place. -/
inductive Fragment where
  | node (n : Node)
  /-- content after an opening bracket; without a closing one if the input has none -/
  | group (opening : Symbol) (closing : Option Symbol) (content : List Fragment) (bars : Bool)
  /-- a negative number, by its digits -/
  | negative (digits : String)
  | keyword (symbol : Symbol)
  deriving Inhabited

namespace Fragment

/-! ## Nodes of single pieces -/

/-- The leaf of a bracket. A bracket without output does not show. -/
def bracketNodes (symbol : Symbol) : List Node :=
  if symbol.output = "" then [] else [.leaf symbol.element symbol.output]

def keywordSpace : Node := (Node.void .mspace).setAttr .width "1ex"

/-- A keyword with space on both sides. -/
def keywordRow (symbol : Symbol) : Node :=
  .row [keywordSpace, .leaf .mo symbol.output, keywordSpace]

def negativeNodes (digits : String) : List Node := [.leaf .mo "-", .leaf .mn digits]

def bracketed (opening : Symbol) (closing : Option Symbol) (content : List Node) : Node :=
  .row (bracketNodes opening ++ (content ++ (closing.map bracketNodes).getD []))

/-! ## Fragments in their place -/

mutual

def nodes : Fragment → List Node
  | .node n => [n]
  | .group opening closing content _ => [bracketed opening closing (nodesOfList content)]
  | .negative digits => negativeNodes digits
  | .keyword symbol => [keywordRow symbol]

def nodesOfList : List Fragment → List Node
  | [] => []
  | fragment :: fragments => fragment.nodes ++ nodesOfList fragments

end

def single (fragment : Fragment) : Node := .singleOrRow fragment.nodes

/-- A fragment as the argument of a function, a script or a fraction: there a closed group loses its
brackets, but not its bars. -/
def argument : Fragment → Node
  | .group _ (some _) content false => .singleOrRow (nodesOfList content)
  | fragment => fragment.single

def isComma : Fragment → Bool
  | .node n => n.isOperator ","
  | _ => false

theorem nodesOfList_append (xs ys : List Fragment) :
    nodesOfList (xs ++ ys) = nodesOfList xs ++ nodesOfList ys := by
  induction xs with
  | nil => rfl
  | cons x xs ih => rw [List.cons_append, nodesOfList, nodesOfList, ih, List.append_assoc]

theorem nodesOfList_eq_flatMap (xs : List Fragment) : nodesOfList xs = xs.flatMap nodes := by
  induction xs with
  | nil => rfl
  | cons x xs ih => rw [nodesOfList, ih, List.flatMap_cons]

end Fragment

end FormulaMarkup
