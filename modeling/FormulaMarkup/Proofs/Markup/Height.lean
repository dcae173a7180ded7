import FormulaMarkup.Proofs.Construction

/-!
# The height of markup

The height of a node is the length of the longest path that goes down from it. Each construction
adds a few nodes to a path, so a bound for the parts gives one for the whole.
-/

namespace FormulaMarkup

namespace Node

/-- The nodes from a node down to a node without children, each a child of the one before. -/
inductive Descends : Node → List Node → Prop where
  | stop {node : Node} (h : node.children = []) : Descends node [node]
  | child {node child : Node} {path : List Node} (h : child ∈ node.children)
    (more : Descends child path) : Descends node (node :: path)

mutual

def height : Node → Nat
  | ⟨_, _, children, _⟩ => heightOfList children + 1

def heightOfList : List Node → Nat
  | [] => 0
  | node :: nodes => max node.height (heightOfList nodes)

end

theorem heightOfList_le_iff {nodes : List Node} {n : Nat} :
    heightOfList nodes ≤ n ↔ ∀ node ∈ nodes, node.height ≤ n := by
  induction nodes with
  | nil => simp [heightOfList]
  | cons node nodes ih => rw [heightOfList, Nat.max_le, ih, List.forall_mem_cons]

theorem height_le_iff {node : Node} {n : Nat} :
    node.height ≤ n + 1 ↔ ∀ child ∈ node.children, child.height ≤ n := by
  obtain ⟨element, attributes, children, text⟩ := node
  rw [height, Nat.succ_le_succ_iff]
  exact heightOfList_le_iff

theorem height_pos (node : Node) : 0 < node.height := by
  cases node
  exact Nat.succ_pos _

theorem height_lt_of_mem {node child : Node} (h : child ∈ node.children) :
    child.height < node.height := by
  obtain ⟨n, hn⟩ := Nat.exists_eq_add_one.2 node.height_pos
  have hle := height_le_iff.1 (Nat.le_of_eq hn) child h
  omega

/-- No path is longer than the height. -/
theorem Descends.length_le {node : Node} {path : List Node} (h : node.Descends path) :
    path.length ≤ node.height := by
  induction h with
  | @stop node _ => exact node.height_pos
  | @child node child path hmem _ ih =>
    have hlt := height_lt_of_mem hmem
    rw [List.length_cons]
    omega

theorem exists_mem_height_eq {nodes : List Node} (h : nodes ≠ []) :
    ∃ node ∈ nodes, node.height = heightOfList nodes := by
  induction nodes with
  | nil => exact absurd rfl h
  | cons node nodes ih =>
    rw [heightOfList]
    rcases Nat.le_total (heightOfList nodes) node.height with hle | hle
    · exact ⟨node, List.mem_cons_self, (Nat.max_eq_left hle).symm⟩
    · have hne : nodes ≠ [] := by
        rintro rfl
        exact Nat.not_lt.2 hle node.height_pos
      obtain ⟨highest, hmem, hheight⟩ := ih hne
      exact ⟨highest, List.mem_cons_of_mem _ hmem, by rw [hheight, Nat.max_eq_right hle]⟩

/-- There is a path as long as the height. -/
theorem exists_descends : (node : Node) → ∃ path, node.Descends path ∧ path.length = node.height
  | ⟨element, attributes, [], text⟩ => ⟨_, .stop rfl, rfl⟩
  | ⟨element, attributes, first :: more, text⟩ => by
    obtain ⟨child, hmem, hheight⟩ := exists_mem_height_eq (List.cons_ne_nil first more)
    obtain ⟨path, hpath, hlength⟩ := exists_descends child
    refine ⟨_, .child hmem hpath, ?_⟩
    rw [List.length_cons, hlength, hheight, height]
termination_by node => node.height
decreasing_by exact height_lt_of_mem hmem

@[simp] theorem height_leaf (element : Element) (text : String) :
    (leaf element text).height = 1 := rfl

theorem pair_height_le (element : Element) {a b : Node} {n : Nat} (ha : a.height ≤ n)
    (hb : b.height ≤ n) : (container element [a, b]).height ≤ n + 1 :=
  height_le_iff.2 (List.forall_mem_cons.2 ⟨ha, List.forall_mem_singleton.2 hb⟩)

theorem height_setAttr (node : Node) (a : Attribute) (value : String) :
    (node.setAttr a value).height = node.height := by
  cases node
  rfl

theorem singleOrRow_height_le {nodes : List Node} {n : Nat} (h : ∀ node ∈ nodes, node.height ≤ n) :
    (singleOrRow nodes).height ≤ n + 1 := by
  unfold singleOrRow
  split
  · exact Nat.le_succ_of_le (h _ (by simp))
  · exact height_le_iff.2 h

theorem height_le_singleOrRow {nodes : List Node} :
    ∀ node ∈ nodes, node.height ≤ (singleOrRow nodes).height := by
  intro node hnode
  unfold singleOrRow
  split
  · exact Nat.le_of_eq (congrArg height (List.mem_singleton.1 hnode))
  · exact Nat.le_of_lt (height_lt_of_mem hnode)

end Node

/-! ## Fragments -/

namespace Fragment

/-- The height of a fragment as a single node. -/
def height (fragment : Fragment) : Nat := fragment.single.height

variable {opening : Symbol} {closing : Option Symbol} {content : List Fragment} {bars : Bool}
  {n : Nat}

theorem nodes_height_le {fragment : Fragment} :
    ∀ node ∈ fragment.nodes, node.height ≤ fragment.height :=
  Node.height_le_singleOrRow

theorem mem_nodesOfList {fragments : List Fragment} {node : Node} :
    node ∈ nodesOfList fragments ↔ ∃ fragment ∈ fragments, node ∈ fragment.nodes := by
  rw [nodesOfList_eq_flatMap, List.mem_flatMap]

theorem nodesOfList_height_le (h : ∀ fragment ∈ content, fragment.height ≤ n) :
    ∀ node ∈ nodesOfList content, node.height ≤ n := by
  intro node hnode
  obtain ⟨fragment, hmem, hfragment⟩ := mem_nodesOfList.1 hnode
  exact Nat.le_trans (nodes_height_le node hfragment) (h fragment hmem)

theorem bracketNodes_height_le (symbol : Symbol) :
    ∀ node ∈ bracketNodes symbol, node.height ≤ 1 := by
  unfold bracketNodes
  split
  · simp
  · simp

theorem group_height_le (hpos : 1 ≤ n) (h : ∀ fragment ∈ content, fragment.height ≤ n) :
    (group opening closing content bars).height ≤ n + 1 := by
  refine Node.height_le_iff.2 fun node hnode => ?_
  rcases List.mem_append.1 hnode with hnode | hnode
  · exact Nat.le_trans (bracketNodes_height_le _ node hnode) hpos
  · rcases List.mem_append.1 hnode with hnode | hnode
    · exact nodesOfList_height_le h node hnode
    · cases closing with
      | none => cases hnode
      | some symbol => exact Nat.le_trans (bracketNodes_height_le _ node hnode) hpos

theorem height_lt_group {node : Node} (h : node ∈ nodesOfList content) :
    node.height < (group opening closing content bars).height := by
  have hmem : node ∈ (bracketed opening closing (nodesOfList content)).children :=
    List.mem_append_right _ (List.mem_append_left _ h)
  exact Node.height_lt_of_mem hmem

/-- Without its brackets a group is no higher. -/
theorem argument_height_le (fragment : Fragment) : fragment.argument.height ≤ fragment.height := by
  unfold argument
  split
  · next opening closing content =>
    -- The content is lower than the group, which makes up for a row around it.
    have hlt : ∀ node ∈ nodesOfList content,
        node.height < (group opening (some closing) content false).height :=
      fun node hnode => height_lt_group hnode
    obtain ⟨n, hn⟩ := Nat.exists_eq_add_one.2
      (Node.height_pos (group opening (some closing) content false).single)
    rw [height, hn] at hlt ⊢
    exact Node.singleOrRow_height_le fun node hnode => Nat.le_of_lt_succ (hlt node hnode)
  · exact Nat.le_refl _

end Fragment

/-! ## Tables -/

theorem TableRow.cell_height_le {row : TableRow} {cell : List Fragment} (h : cell ∈ row.cells) :
    (Node.container .mtd (Fragment.nodesOfList cell)).height ≤ row.group.height := by
  obtain ⟨n, hn⟩ := Nat.exists_eq_add_one.2 row.group.single.height_pos
  rw [Fragment.height, hn]
  refine Node.height_le_iff.2 fun node hnode => Nat.le_of_lt_succ ?_
  obtain ⟨fragment, hfragment, hnode⟩ := Fragment.mem_nodesOfList.1 hnode
  have hcontent : node ∈ Fragment.nodesOfList row.content :=
    Fragment.mem_nodesOfList.2 ⟨fragment, mem_of_mem_cellsOf h hfragment, hnode⟩
  rw [Nat.succ_eq_add_one, ← hn]
  exact Fragment.height_lt_group hcontent

namespace Table

/-- A table is higher than the rows that it is made of by two nodes at most. -/
theorem node_height_le {rows : List TableRow} {n : Nat} (h : ∀ row ∈ rows, row.group.height ≤ n) :
    (node rows).height ≤ n + 2 := by
  have htable : (Node.container .mtable (rows.map TableRow.node)).height ≤ n + 2 := by
    refine Node.height_le_iff.2 fun node hnode => ?_
    obtain ⟨row, hrow, rfl⟩ := List.mem_map.1 hnode
    refine Node.height_le_iff.2 fun node hnode => ?_
    obtain ⟨cell, hcell, rfl⟩ := List.mem_map.1 hnode
    exact Nat.le_trans (TableRow.cell_height_le hcell) (h row hrow)
  unfold node
  simp only
  split
  · rw [Node.height_setAttr]
    exact htable
  · exact htable

/-- A table in place of its rows is no higher than the content, if the rows are lower. -/
theorem resolve_height_le {content : List Fragment} {n : Nat}
    (h : ∀ fragment ∈ content, fragment.height ≤ n + 2)
    (hrows : ∀ row : TableRow, row.group ∈ content → row.group.height ≤ n) :
    ∀ fragment ∈ resolve content, fragment.height ≤ n + 2 := by
  unfold resolve
  split
  · next table htable =>
    unfold ofContent? at htable
    split at htable
    · next hread =>
      split at htable
      · cases htable
        intro fragment hfragment
        rw [List.mem_singleton.1 hfragment]
        exact node_height_le fun row hrow => hrows row (group_mem_of_rows? hread row hrow)
      · cases htable
    · cases htable
  · exact h

end Table

/-! ## Scripts -/

namespace ScriptLevel

variable {base : Node} {n : Nat}

theorem attach_height_le (limits : Bool) {level : ScriptLevel} (hbase : base.height ≤ n)
    (h : ∀ node ∈ level.nodes, node.height ≤ n) : (level.attach limits base).height ≤ n + 1 := by
  obtain ⟨element, -, -, heq⟩ := attach_eq limits base level
  rw [heq]
  exact Node.height_le_iff.2 (List.forall_mem_cons.2 ⟨hbase, h⟩)

theorem foldl_attach_height_le {levels : List ScriptLevel} (hbase : base.height ≤ n)
    (h : ∀ level ∈ levels, ∀ node ∈ level.nodes, node.height ≤ n) :
    (levels.foldl (attach false) base).height ≤ n + levels.length := by
  induction levels generalizing base n with
  | nil => exact hbase
  | cons level levels ih =>
    rw [List.forall_mem_cons] at h
    have hmore := ih (attach_height_le false hbase h.1)
      fun l hl node hnode => Nat.le_succ_of_le (h.2 l hl node hnode)
    rw [List.foldl_cons, List.length_cons]
    omega

theorem attachAll_height_le (limits : Bool) {levels : List ScriptLevel} (hbase : base.height ≤ n)
    (h : ∀ level ∈ levels, ∀ node ∈ level.nodes, node.height ≤ n) :
    (attachAll limits base levels).height ≤ n + levels.length := by
  cases levels with
  | nil => exact hbase
  | cons level levels =>
    rw [List.forall_mem_cons] at h
    have hmore := foldl_attach_height_le (attach_height_le limits hbase h.1)
      fun l hl node hnode => Nat.le_succ_of_le (h.2 l hl node hnode)
    rw [attachAll, List.length_cons]
    omega

theorem height_lt_attach (limits : Bool) (base : Node) (level : ScriptLevel) :
    base.height < (level.attach limits base).height := by
  obtain ⟨element, -, -, heq⟩ := attach_eq limits base level
  rw [heq]
  exact Node.height_lt_of_mem (List.mem_cons_self)

theorem le_foldl_attach_height (base : Node) (levels : List ScriptLevel) :
    base.height + levels.length ≤ (levels.foldl (attach false) base).height := by
  induction levels generalizing base with
  | nil => exact Nat.le_refl _
  | cons level levels ih =>
    have hmore := ih (level.attach false base)
    have hlt := height_lt_attach false base level
    rw [List.foldl_cons, List.length_cons]
    omega

/-- Each level of scripts adds a node above the base. -/
theorem le_attachAll_height (limits : Bool) (base : Node) (levels : List ScriptLevel) :
    base.height + levels.length ≤ (attachAll limits base levels).height := by
  cases levels with
  | nil => exact Nat.le_refl _
  | cons level levels =>
    have hmore := le_foldl_attach_height (level.attach limits base) levels
    have hlt := height_lt_attach limits base level
    rw [attachAll, List.length_cons]
    omega

end ScriptLevel

end FormulaMarkup
