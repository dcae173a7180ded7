import FormulaMarkup.Fragment.Basic

/-!
# Tables: groups of rows, such as matrices and case distinctions

The content of a group is a table if it is two or more groups in one kind of brackets, separated by
commas, and these groups have equally many cells, which commas separate too.
-/

namespace FormulaMarkup

/-- A closed group that may be a row of a table. -/
structure TableRow where
  opening : Symbol
  closing : Symbol
  content : List Fragment

namespace TableRow

/-- A group is a row if it is closed and not between bars. -/
def ofFragment? : Fragment → Option TableRow
  | .group opening (some closing) content false => some ⟨opening, closing, content⟩
  | _ => none

def cellsOf : List Fragment → List (List Fragment)
  | [] => [[]]
  | fragment :: fragments =>
    if fragment.isComma then
      [] :: cellsOf fragments
    else
      match cellsOf fragments with
      | [] => [[fragment]]
      | cell :: cells => (fragment :: cell) :: cells

def cells (row : TableRow) : List (List Fragment) := cellsOf row.content

def fits (first row : TableRow) : Bool :=
  row.opening.output = first.opening.output && row.closing.output = first.closing.output &&
    row.cells.length = first.cells.length

/-- Whether the second cell begins with a keyword. -/
def isCase (row : TableRow) : Bool :=
  match row.cells with
  | _ :: (.keyword _ :: _) :: _ => true
  | _ => false

def node (row : TableRow) : Node :=
  .container .mtr (row.cells.map fun cell => .container .mtd (Fragment.nodesOfList cell))

end TableRow

namespace Table

/-- The groups with commas between them, one after each group but the last. -/
def rows? : List Fragment → Option (List TableRow)
  | [] => none
  | [fragment] => (TableRow.ofFragment? fragment).map ([·])
  | fragment :: comma :: fragments =>
    if comma.isComma then
      match TableRow.ofFragment? fragment, rows? fragments with
      | some row, some rows => some (row :: rows)
      | _, _ => none
    else
      none

/-- Whether the rows are a case distinction: two columns, and keywords at the head of the second. -/
def areCases (rows : List TableRow) : Bool :=
  rows.all fun row => row.cells.length = 2 && row.isCase

/-- The rows as a table. Case distinctions are aligned to the left. -/
def node (rows : List TableRow) : Node :=
  let table := Node.container .mtable (rows.map TableRow.node)
  if areCases rows then table.setAttr .columnalign "left" else table

def ofContent? (content : List Fragment) : Option Node :=
  match rows? content with
  | some (first :: second :: rows) =>
    if (second :: rows).all first.fits then some (node (first :: second :: rows)) else none
  | _ => none

/-- The content of a closed group, in which a table takes the place of its rows. -/
def resolve (content : List Fragment) : List Fragment :=
  match ofContent? content with
  | some table => [.node table]
  | none => content

end Table

end FormulaMarkup
