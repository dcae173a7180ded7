import FormulaMarkup.Proofs.Markup.Shape

/-!
# Nodes that are built

Leaves, layouts and tables are the only nodes that are ever built, so a property that these keep is
a property of all markup.
-/

namespace FormulaMarkup

namespace Element

/-- Elements that may consist of a text. -/
def hasText (element : Element) : Bool := element.isToken || element = .mtext

end Element

namespace Node

inductive Built : Node → Prop where
  | leaf {element : Element} {text : String}
    (h : element.isToken = true ∧ text ≠ "" ∨ element = .mtext) : Built (.leaf element text)
  | layout {element : Element} {attributes : Attributes} {children : List Node}
    (helement : element.isLayout = true)
    (harity : ∀ n, element.arity? = some n → children.length = n)
    (hnonempty : element.hasText = true → children ≠ [])
    (hchildren : ∀ child ∈ children, Built child) : Built ⟨element, attributes, children, none⟩
  | table {attributes : Attributes} {rows : List (List (List Node))} {columns : Nat}
    (hrows : 2 ≤ rows.length) (hcolumns : 1 ≤ columns)
    (hlength : ∀ row ∈ rows, row.length = columns)
    (hnodes : ∀ row ∈ rows, ∀ cell ∈ row, ∀ node ∈ cell, Built node) :
    Built ⟨.mtable, attributes, rows.map fun row => .container .mtr (row.map (.container .mtd)),
      none⟩

namespace Built

theorem row {children : List Node} (h : ∀ child ∈ children, child.Built) :
    (Node.row children).Built :=
  .layout rfl nofun nofun h

theorem row_iff {children : List Node} :
    (Node.row children).Built ↔ ∀ child ∈ children, child.Built := by
  constructor
  · intro h
    cases h with
    | layout _ _ _ hchildren => exact hchildren
  · exact row

theorem text_ne_empty {node : Node} (h : node.Built) (helement : node.element ≠ .mtext) :
    node.text ≠ some "" := by
  cases h with
  | leaf h =>
    intro htext
    exact (h.resolve_right helement).2 (Option.some.inj htext)
  | layout => nofun
  | table => nofun

theorem singleOrRow {nodes : List Node} (h : ∀ node ∈ nodes, node.Built) :
    (Node.singleOrRow nodes).Built := by
  unfold Node.singleOrRow
  split
  · exact h _ (by simp)
  · exact row h

/-- What is built may stand anywhere. -/
theorem inline {node : Node} (h : node.Built) : node.Inline := by
  induction h with
  | leaf h => exact leaf_inline h
  | layout helement harity _ _ ih => exact (layout_inline helement harity ih).withAttributes _
  | @table attributes rows columns hrows hcolumns hlength _ ih =>
    have hcell : ∀ row ∈ rows, ∀ cell ∈ row.map (container .mtd),
        cell.WellFormed ∧ cell.element = .mtd := by
      intro row hrow cell hcell
      obtain ⟨nodes, hnodes, rfl⟩ := List.mem_map.1 hcell
      exact ⟨cell_wellFormed (ih row hrow nodes hnodes), rfl⟩
    have hshape : ∀ row ∈ rows.map fun row => container .mtr (row.map (container .mtd)),
        row.WellFormed ∧ row.element = .mtr ∧ row.children.length = columns := by
      intro node hnode
      obtain ⟨row, hrow, rfl⟩ := List.mem_map.1 hnode
      refine ⟨tableRow_wellFormed (hcell row hrow), rfl, ?_⟩
      rw [← hlength row hrow]
      exact List.length_map _
    exact (table_inline (by simpa using hrows) hcolumns hshape).withAttributes attributes

end Built

end Node

/-! ## Scripts -/

namespace ScriptLevel

theorem attach_built {limits : Bool} {base : Node} {level : ScriptLevel} (hbase : base.Built)
    (h : ∀ node ∈ level.nodes, node.Built) : (level.attach limits base).Built := by
  obtain ⟨element, hlayout, harity, heq⟩ := attach_eq limits base level
  rw [heq]
  refine .layout hlayout (fun n hn => ?_) (fun _ => nofun) (List.forall_mem_cons.2 ⟨hbase, h⟩)
  exact Option.some.inj (harity.symm.trans hn)

theorem foldl_attach_built {base : Node} {levels : List ScriptLevel} (hbase : base.Built)
    (h : ∀ level ∈ levels, ∀ node ∈ level.nodes, node.Built) :
    (levels.foldl (attach false) base).Built := by
  induction levels generalizing base with
  | nil => exact hbase
  | cons level levels ih =>
    exact ih (attach_built hbase (h level (by simp))) (fun l hl => h l (by simp [hl]))

theorem attachAll_built {limits : Bool} {base : Node} {levels : List ScriptLevel}
    (hbase : base.Built) (h : ∀ level ∈ levels, ∀ node ∈ level.nodes, node.Built) :
    (attachAll limits base levels).Built := by
  cases levels with
  | nil => exact hbase
  | cons level levels =>
    exact foldl_attach_built (attach_built hbase (h level (by simp)))
      (fun l hl => h l (by simp [hl]))

end ScriptLevel

end FormulaMarkup
