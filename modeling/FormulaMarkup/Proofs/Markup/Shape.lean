import FormulaMarkup.Fragment.Table
import FormulaMarkup.Proofs.Markup.Scripts

/-!
# The shape of markup

Each element demands something of its children, and a row of a table or a cell may stand in one
place only. A node that may stand anywhere is inline; what is built from inline nodes is inline
again.
-/

namespace FormulaMarkup

namespace Element

/-- The number of children that an element demands. -/
def arity? : Element → Option Nat
  | mfrac | msub | msup | munder | mover | mroot => some 2
  | msubsup | munderover => some 3
  | msqrt => some 1
  | _ => none

/-- Identifiers, numbers and operators consist of a text. -/
def isToken : Element → Bool
  | mi | mn | mo => true
  | _ => false

/-- Elements whose children may be of any inline kind. -/
def isLayout : Element → Bool
  | math | mtable | mtr | mtd | mi | mn | mo => false
  | _ => true

end Element

namespace Node

/-! ## Well-formed trees -/

mutual

/-- The nodes of a tree, each before its children. -/
def subtrees : Node → List Node
  | ⟨element, attributes, children, text⟩ =>
    ⟨element, attributes, children, text⟩ :: subtreesOfList children

def subtreesOfList : List Node → List Node
  | [] => []
  | node :: nodes => node.subtrees ++ subtreesOfList nodes

end

/-- What a node and its children have to be like. -/
structure Shaped (node : Node) : Prop where
  /-- a node is a leaf, with a text and no children, or a container, with no text -/
  childless : node.text ≠ none → node.children = []
  token : node.element.isToken = true → ∃ text, node.text = some text ∧ text ≠ ""
  arity : ∀ n, node.element.arity? = some n → node.children.length = n
  table : node.element = .mtable → 2 ≤ node.children.length ∧
    (∀ row ∈ node.children, row.element = .mtr) ∧
    ∃ columns, 1 ≤ columns ∧ ∀ row ∈ node.children, row.children.length = columns
  row : node.element = .mtr → ∀ cell ∈ node.children, cell.element = .mtd
  inTable : ∀ child ∈ node.children, child.element = .mtr → node.element = .mtable
  inRow : ∀ child ∈ node.children, child.element = .mtd → node.element = .mtr
  inner : ∀ child ∈ node.children, child.element ≠ .math

def WellFormed (root : Node) : Prop := ∀ node ∈ root.subtrees, node.Shaped

theorem mem_subtreesOfList {node : Node} {nodes : List Node} :
    node ∈ subtreesOfList nodes ↔ ∃ root ∈ nodes, node ∈ root.subtrees := by
  induction nodes with
  | nil => simp [subtreesOfList]
  | cons root nodes ih => simp [subtreesOfList, ih]

theorem forall_mem_subtrees {P : Node → Prop} {root : Node} :
    (∀ node ∈ root.subtrees, P node) ↔
      P root ∧ ∀ child ∈ root.children, ∀ node ∈ child.subtrees, P node := by
  obtain ⟨element, attributes, children, text⟩ := root
  simp only [subtrees, List.mem_cons, forall_eq_or_imp, mem_subtreesOfList]
  constructor
  · exact fun ⟨hself, hbelow⟩ => ⟨hself, fun child hc n hn => hbelow n ⟨child, hc, hn⟩⟩
  · rintro ⟨hself, hbelow⟩
    exact ⟨hself, fun n ⟨child, hc, hn⟩ => hbelow child hc n hn⟩

theorem wellFormed_iff {node : Node} :
    node.WellFormed ↔ node.Shaped ∧ ∀ child ∈ node.children, child.WellFormed :=
  forall_mem_subtrees

/-! ## Inline nodes -/

/-- A well-formed node that may stand anywhere. -/
structure Inline (node : Node) : Prop where
  wellFormed : node.WellFormed
  notMath : node.element ≠ .math
  notRow : node.element ≠ .mtr
  notCell : node.element ≠ .mtd

theorem leaf_inline {element : Element} {text : String}
    (h : element.isToken = true ∧ text ≠ "" ∨ element = .mtext) :
    (leaf element text).Inline := by
  have hshaped : (leaf element text).Shaped := by
    constructor
    case childless => exact fun _ => rfl
    case token =>
      intro htoken
      rcases h with ⟨_, htext⟩ | rfl
      · exact ⟨text, rfl, htext⟩
      · cases htoken
    case arity =>
      intro n hn
      rcases h with ⟨htoken, _⟩ | rfl
      · cases element <;> simp [leaf, Element.arity?, Element.isToken] at hn htoken
      · cases hn
    case table =>
      rintro rfl
      rcases h with ⟨htoken, _⟩ | h
      · cases htoken
      · cases h
    all_goals simp [leaf]
  refine ⟨wellFormed_iff.2 ⟨hshaped, by simp [leaf]⟩, ?_, ?_, ?_⟩ <;>
  · rintro rfl
    simp [Element.isToken] at h

/-- A layout element around inline nodes, as many as it demands. -/
theorem layout_inline {element : Element} {children : List Node}
    (helement : element.isLayout = true)
    (harity : ∀ n, element.arity? = some n → children.length = n)
    (hchildren : ∀ child ∈ children, child.Inline) :
    (container element children).Inline := by
  have hshaped : (container element children).Shaped := by
    constructor
    case childless => simp [container]
    case token => intro htoken; cases element <;> cases helement <;> cases htoken
    case arity => exact harity
    case table => rintro rfl; cases helement
    case row => rintro rfl; cases helement
    case inTable => exact fun child hc hrow => absurd hrow (hchildren child hc).notRow
    case inRow => exact fun child hc hcell => absurd hcell (hchildren child hc).notCell
    case inner => exact fun child hc => (hchildren child hc).notMath
  have hbelow : ∀ child ∈ children, child.WellFormed :=
    fun child hc => (hchildren child hc).wellFormed
  refine ⟨wellFormed_iff.2 ⟨hshaped, hbelow⟩, ?_, ?_, ?_⟩ <;>
  · rintro rfl
    cases helement

theorem Inline.withAttributes {node : Node} (h : node.Inline) (attributes : Attributes) :
    Inline { node with attributes } := by
  obtain ⟨hself, hbelow⟩ := wellFormed_iff.1 h.wellFormed
  have hshaped : Shaped { node with attributes } :=
    ⟨hself.childless, hself.token, hself.arity, hself.table, hself.row, hself.inTable, hself.inRow,
      hself.inner⟩
  exact ⟨wellFormed_iff.2 ⟨hshaped, hbelow⟩, h.notMath, h.notRow, h.notCell⟩

/-! ## Tables -/

theorem cell_wellFormed {children : List Node} (h : ∀ child ∈ children, child.Inline) :
    (container .mtd children).WellFormed := by
  refine wellFormed_iff.2 ⟨?_, fun child hc => (h child hc).wellFormed⟩
  constructor
  case childless => simp [container]
  case inTable => exact fun child hc hrow => absurd hrow (h child hc).notRow
  case inRow => exact fun child hc hcell => absurd hcell (h child hc).notCell
  case inner => exact fun child hc => (h child hc).notMath
  all_goals simp [container, Element.isToken, Element.arity?]

theorem tableRow_wellFormed {cells : List Node}
    (h : ∀ cell ∈ cells, cell.WellFormed ∧ cell.element = .mtd) :
    (container .mtr cells).WellFormed := by
  refine wellFormed_iff.2 ⟨?_, fun cell hc => (h cell hc).1⟩
  constructor
  case childless => simp [container]
  case row => exact fun _ cell hc => (h cell hc).2
  case inTable => intro cell hc hrow; cases (h cell hc).2.symm.trans hrow
  case inner => intro cell hc hmath; cases (h cell hc).2.symm.trans hmath
  all_goals simp [container, Element.isToken, Element.arity?]

/-- At least two rows of equal width make up a table. -/
theorem table_inline {rows : List Node} {columns : Nat}
    (hrows : 2 ≤ rows.length) (hcolumns : 1 ≤ columns)
    (h : ∀ row ∈ rows, row.WellFormed ∧ row.element = .mtr ∧ row.children.length = columns) :
    (container .mtable rows).Inline := by
  have hshaped : (container .mtable rows).Shaped := by
    constructor
    case childless => simp [container]
    case table =>
      exact fun _ => ⟨hrows, fun row hr => (h row hr).2.1, columns, hcolumns,
        fun row hr => (h row hr).2.2⟩
    case inRow => intro row hr hcell; cases (h row hr).2.1.symm.trans hcell
    case inner => intro row hr hmath; cases (h row hr).2.1.symm.trans hmath
    all_goals simp [container, Element.isToken, Element.arity?]
  exact ⟨wellFormed_iff.2 ⟨hshaped, fun row hr => (h row hr).1⟩, nofun, nofun, nofun⟩

/-- A single inline node may be the content of the whole. -/
theorem math_wellFormed {attributes : Attributes} {child : Node} (h : child.Inline) :
    WellFormed ⟨.math, attributes, [child], none⟩ := by
  refine wellFormed_iff.2 ⟨?_, by simpa using h.wellFormed⟩
  constructor
  case inTable => simpa using h.notRow
  case inRow => simpa using h.notCell
  case inner => simpa using h.notMath
  all_goals simp [Element.isToken, Element.arity?]

end Node

/-! ## Scripts -/

namespace ScriptLevel

/-- A level makes a layout of the base and its nodes. -/
theorem attach_eq (limits : Bool) (base : Node) (level : ScriptLevel) :
    ∃ element, element.isLayout = true ∧ element.arity? = some (base :: level.nodes).length ∧
      level.attach limits base = .container element (base :: level.nodes) := by
  cases limits <;> cases level <;> exact ⟨_, rfl, rfl, rfl⟩

end ScriptLevel

end FormulaMarkup
