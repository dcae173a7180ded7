import FormulaMarkup.Proofs.Construction

/-!
# The size of markup

A fragment takes its place only later, and with it brackets, a row or cells of a table. Its weight
counts the nodes that it can come to wherever it is placed, so the weight is known at once.
-/

namespace FormulaMarkup

namespace Node

/-- The number of nodes in a tree. -/
def size (node : Node) : Nat := node.subtrees.length

def sizeOfList (nodes : List Node) : Nat := (subtreesOfList nodes).length

@[simp] theorem sizeOfList_nil : sizeOfList [] = 0 := rfl

@[simp] theorem sizeOfList_cons (node : Node) (nodes : List Node) :
    sizeOfList (node :: nodes) = node.size + sizeOfList nodes := List.length_append

@[simp] theorem sizeOfList_append (xs ys : List Node) :
    sizeOfList (xs ++ ys) = sizeOfList xs + sizeOfList ys := by
  induction xs with
  | nil => simp
  | cons x xs ih => rw [List.cons_append, sizeOfList_cons, sizeOfList_cons, ih, Nat.add_assoc]

theorem size_eq (node : Node) : node.size = sizeOfList node.children + 1 := by
  cases node
  exact List.length_cons

theorem size_pos (node : Node) : 0 < node.size := by
  rw [size_eq]
  exact Nat.succ_pos _

@[simp] theorem size_leaf (element : Element) (text : String) : (leaf element text).size = 1 := rfl

@[simp] theorem size_container (element : Element) (children : List Node) :
    (container element children).size = sizeOfList children + 1 := size_eq _

@[simp] theorem size_row (children : List Node) : (row children).size = sizeOfList children + 1 :=
  size_eq _

@[simp] theorem size_setAttr (node : Node) (a : Attribute) (value : String) :
    (node.setAttr a value).size = node.size := by
  rw [size_eq, size_eq]
  rfl

theorem singleOrRow_size_le (nodes : List Node) :
    (singleOrRow nodes).size ≤ sizeOfList nodes + 1 := by
  unfold singleOrRow
  split
  · simp
  · exact Nat.le_of_eq (size_row nodes)

end Node

open Node

/-! ## Fragments -/

namespace Fragment

mutual

/-- The nodes that a fragment comes to at most. A group has a row and its brackets, even if these do
not show or a row of a table takes its place. -/
def weight : Fragment → Nat
  | .node n => n.size
  | .group _ closing content _ => weightOfList content + closing.toList.length + 2
  | .negative _ => 3
  | .keyword _ => 4

def weightOfList : List Fragment → Nat
  | [] => 0
  | fragment :: fragments => fragment.weight + weightOfList fragments

end

variable {opening : Symbol} {closing : Option Symbol} {content : List Fragment} {bars : Bool}

theorem weight_pos (fragment : Fragment) : 0 < fragment.weight := by
  cases fragment with
  | node n => exact n.size_pos
  | _ => exact Nat.succ_pos _

theorem bracketNodes_size_le (symbol : Symbol) : sizeOfList (bracketNodes symbol) ≤ 1 := by
  unfold bracketNodes
  split
  · exact Nat.zero_le _
  · exact Nat.le_refl 1

theorem bracketed_size_le (opening : Symbol) (closing : Option Symbol) (content : List Node) :
    (bracketed opening closing content).size ≤
      sizeOfList content + closing.toList.length + 2 := by
  have hopening := bracketNodes_size_le opening
  have hclosing : sizeOfList ((closing.map bracketNodes).getD []) ≤ closing.toList.length := by
    cases closing with
    | none => exact Nat.le_refl 0
    | some symbol => exact bracketNodes_size_le symbol
  rw [bracketed, size_row, sizeOfList_append, sizeOfList_append]
  omega

mutual

theorem nodes_size_le : (fragment : Fragment) → sizeOfList fragment.nodes ≤ fragment.weight
  | .node n => by simp [nodes, weight]
  | .group opening closing content bars => by
    have hcontent := nodesOfList_size_le content
    have hgroup := bracketed_size_le opening closing (nodesOfList content)
    rw [nodes, sizeOfList_cons, sizeOfList_nil, weight]
    omega
  | .negative digits => Nat.le_succ 2
  | .keyword symbol => Nat.le_refl 4

theorem nodesOfList_size_le : (fragments : List Fragment) →
    sizeOfList (nodesOfList fragments) ≤ weightOfList fragments
  | [] => Nat.le_refl 0
  | fragment :: fragments => by
    rw [nodesOfList, sizeOfList_append, weightOfList]
    exact Nat.add_le_add (nodes_size_le fragment) (nodesOfList_size_le fragments)

end

theorem single_size_le (fragment : Fragment) : fragment.single.size ≤ fragment.weight := by
  cases fragment with
  | node n => exact Nat.le_refl _
  | group opening closing content bars =>
    have hnodes := nodes_size_le (.group opening closing content bars)
    rwa [nodes, sizeOfList_cons, sizeOfList_nil] at hnodes
  | negative digits => exact Nat.le_refl 3
  | keyword symbol => exact Nat.le_refl 4

/-- Without its brackets a group may become a row, for which they pay. -/
theorem argument_size_le (fragment : Fragment) : fragment.argument.size ≤ fragment.weight := by
  unfold argument
  split
  · next opening closing content =>
    have hrow := singleOrRow_size_le (nodesOfList content)
    have hcontent := nodesOfList_size_le content
    rw [weight]
    omega
  · exact single_size_le _

end Fragment

open Fragment

/-! ## Tables -/

namespace TableRow

/-- Each comma pays for the cell after it. -/
theorem cellsOf_size_le (content : List Fragment) :
    sizeOfList ((cellsOf content).map fun cell => .container .mtd (nodesOfList cell)) ≤
      weightOfList content + 1 := by
  fun_induction cellsOf content with
  | case1 => exact Nat.le_refl 1
  | case2 fragment fragments hcomma ih =>
    have hpos := fragment.weight_pos
    rw [List.map_cons, sizeOfList_cons, size_container, weightOfList, nodesOfList, sizeOfList_nil]
    omega
  | case3 fragment fragments hcomma hnil ih => exact absurd hnil (cellsOf_ne_nil fragments)
  | case4 fragment fragments hcomma cell cells hcells ih =>
    have hnodes := nodes_size_le fragment
    rw [hcells, List.map_cons, sizeOfList_cons, size_container] at ih
    rw [List.map_cons, sizeOfList_cons, size_container, weightOfList, nodesOfList,
      sizeOfList_append]
    omega

/-- A row of a table is smaller than the group that it stands for. -/
theorem node_size_lt (row : TableRow) : row.node.size < row.group.weight := by
  have hcells : sizeOfList (row.cells.map fun cell => .container .mtd (nodesOfList cell)) ≤
      weightOfList row.content + 1 := cellsOf_size_le row.content
  rw [node, size_container, group, weight, Option.toList_some, List.length_singleton]
  omega

end TableRow

namespace Table

theorem rows_weight_le {content : List Fragment} {rows : List TableRow}
    (h : rows? content = some rows) :
    weightOfList (rows.map TableRow.group) ≤ weightOfList content := by
  fun_induction rows? content generalizing rows with
  | case1 => cases h
  | case2 fragment =>
    obtain ⟨row, hrow, rfl⟩ := Option.map_eq_some_iff.1 h
    rw [TableRow.eq_group_of_ofFragment? hrow]
    exact Nat.le_refl _
  | case3 fragment comma fragments _ row more hmore hrow ih =>
    cases h
    have hle := ih hmore
    rw [TableRow.eq_group_of_ofFragment? hrow, List.map_cons, weightOfList, weightOfList,
      weightOfList]
    omega
  | case4 => cases h
  | case5 => cases h

theorem sizeOfList_rows_le (rows : List TableRow) :
    sizeOfList (rows.map TableRow.node) + rows.length ≤
      weightOfList (rows.map TableRow.group) := by
  induction rows with
  | nil => exact Nat.le_refl 0
  | cons row rows ih =>
    have hlt := row.node_size_lt
    rw [List.map_cons, sizeOfList_cons, List.map_cons, weightOfList, List.length_cons]
    omega

theorem size_node (rows : List TableRow) :
    (node rows).size = sizeOfList (rows.map TableRow.node) + 1 := by
  unfold node
  simp only
  split
  · rw [size_setAttr, size_container]
  · rw [size_container]

/-- A table weighs no more than its rows with their brackets. -/
theorem resolve_weight_le (content : List Fragment) :
    weightOfList (resolve content) ≤ weightOfList content := by
  unfold resolve
  split
  · next table htable =>
    unfold ofContent? at htable
    split at htable
    · next first second rows hread =>
      split at htable
      · cases htable
        have hrows := sizeOfList_rows_le (first :: second :: rows)
        have hcontent := rows_weight_le hread
        rw [weightOfList, weightOfList, weight, size_node]
        rw [List.length_cons] at hrows
        omega
      · cases htable
    · cases htable
  · exact Nat.le_refl _

end Table

/-! ## Scripts -/

namespace ScriptLevel

/-- The nodes that scripts come to, with one node above each of them. -/
def sizeOfChain (chain : List (Marker × Node)) : Nat :=
  sizeOfList (chain.map (·.2)) + chain.length

theorem sizeOfChain_cons (marker : Marker) (node : Node) (chain : List (Marker × Node)) :
    sizeOfChain ((marker, node) :: chain) = node.size + 1 + sizeOfChain chain := by
  simp only [sizeOfChain, List.map_cons, sizeOfList_cons, List.length_cons]
  omega

theorem size_attach (limits : Bool) (base : Node) (level : ScriptLevel) :
    (level.attach limits base).size = base.size + sizeOfList level.nodes + 1 := by
  obtain ⟨element, -, -, heq⟩ := attach_eq limits base level
  rw [heq, size_container, sizeOfList_cons]

theorem size_foldl_attach (base : Node) (levels : List ScriptLevel) :
    (levels.foldl (attach false) base).size =
      base.size + sizeOfList (levels.flatMap nodes) + levels.length := by
  induction levels generalizing base with
  | nil => rfl
  | cons level levels ih =>
    rw [List.foldl_cons, ih, size_attach, List.flatMap_cons, sizeOfList_append, List.length_cons]
    omega

theorem size_attachAll (limits : Bool) (base : Node) (levels : List ScriptLevel) :
    (attachAll limits base levels).size =
      base.size + sizeOfList (levels.flatMap nodes) + levels.length := by
  cases levels with
  | nil => rfl
  | cons level levels =>
    rw [attachAll, size_foldl_attach, size_attach, List.flatMap_cons, sizeOfList_append,
      List.length_cons]
    omega

/-- A level adds one node, and at least one script of the chain is on it. -/
theorem ofChain_size_le (chain : List (Marker × Node)) :
    sizeOfList ((ofChain chain).flatMap nodes) + (ofChain chain).length ≤ sizeOfChain chain := by
  fun_induction ofChain chain with
  | case1 => exact Nat.le_refl 0
  | case2 marker a => simp [sizeOfChain]
  | case3 a b chain ih =>
    simp only [sizeOfChain_cons, List.flatMap_cons, nodes, sizeOfList_append, sizeOfList_cons,
      sizeOfList_nil, List.length_cons]
    omega
  | case4 a b chain ih =>
    simp only [sizeOfChain_cons, List.flatMap_cons, nodes, sizeOfList_append, sizeOfList_cons,
      sizeOfList_nil, List.length_cons]
    omega
  | case5 marker a next chain hsub hsup ih =>
    simp only [sizeOfChain_cons, List.flatMap_cons, nodes_one, sizeOfList_append, sizeOfList_cons,
      sizeOfList_nil, List.length_cons] at ih ⊢
    omega

end ScriptLevel

theorem Fragment.withScripts_weight_le (limits : Bool) (base : Fragment)
    (chain : List (Marker × Node)) :
    (withScripts limits base chain).weight ≤ base.weight + ScriptLevel.sizeOfChain chain := by
  cases chain with
  | nil => exact Nat.le_add_right _ _
  | cons script chain =>
    have hbase := base.single_size_le
    have hchain := ScriptLevel.ofChain_size_le (script :: chain)
    rw [withScripts, weight, ScriptLevel.size_attachAll]
    omega

end FormulaMarkup
