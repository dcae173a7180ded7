import FormulaMarkup.Proofs.Markup.Shape

/-!
# The leaves of markup

A tree shows the texts of its leaves, in the order of the document.
-/

namespace FormulaMarkup

/-- An element and the text in it. -/
abbrev Leaf : Type := Element × String

def textsOf (element : Element) (s : List Leaf) : List String :=
  (s.filter (·.1 = element)).map (·.2)

@[simp] theorem textsOf_append (element : Element) (s t : List Leaf) :
    textsOf element (s ++ t) = textsOf element s ++ textsOf element t := by
  simp [textsOf]

namespace Node

mutual

/-- The texts of a tree with their elements, in the order of the document. -/
def leaves : Node → List Leaf
  | ⟨element, _, children, text⟩ => (text.map fun t => (element, t)).toList ++ leavesOfList children

def leavesOfList : List Node → List Leaf
  | [] => []
  | node :: nodes => node.leaves ++ leavesOfList nodes

end

def texts (element : Element) (root : Node) : List String := textsOf element root.leaves

/-! ## Of the nodes that are built -/

@[simp] theorem leavesOfList_nil : leavesOfList [] = [] := rfl

@[simp] theorem leavesOfList_cons (node : Node) (nodes : List Node) :
    leavesOfList (node :: nodes) = node.leaves ++ leavesOfList nodes := rfl

@[simp] theorem leavesOfList_append (xs ys : List Node) :
    leavesOfList (xs ++ ys) = leavesOfList xs ++ leavesOfList ys := by
  induction xs with
  | nil => rfl
  | cons x xs ih => rw [List.cons_append, leavesOfList, leavesOfList, ih, List.append_assoc]

theorem leavesOfList_eq_flatMap (nodes : List Node) :
    leavesOfList nodes = nodes.flatMap leaves := by
  induction nodes with
  | nil => rfl
  | cons node nodes ih => rw [leavesOfList, ih, List.flatMap_cons]

@[simp] theorem leaves_leaf (element : Element) (text : String) :
    (leaf element text).leaves = [(element, text)] := rfl

@[simp] theorem leaves_container (element : Element) (children : List Node) :
    (container element children).leaves = leavesOfList children := rfl

@[simp] theorem leaves_row (children : List Node) :
    (row children).leaves = leavesOfList children := rfl

@[simp] theorem leaves_setAttr (node : Node) (a : Attribute) (value : String) :
    (node.setAttr a value).leaves = node.leaves := by
  cases node
  rfl

@[simp] theorem leaves_singleOrRow (nodes : List Node) :
    (singleOrRow nodes).leaves = leavesOfList nodes := by
  unfold singleOrRow
  split
  · simp
  · rfl

/-- An inline operator is only a leaf. -/
theorem Inline.leaves_of_isOperator {node : Node} {text : String} (h : node.Inline)
    (hop : node.isOperator text = true) : node.leaves = [(.mo, text)] := by
  obtain ⟨element, attributes, children, content⟩ := node
  simp only [isOperator, Bool.and_eq_true, decide_eq_true_eq] at hop
  obtain ⟨rfl, rfl⟩ := hop
  have hchildren := (wellFormed_iff.1 h.wellFormed).1.childless nofun
  simp only at hchildren
  subst hchildren
  rfl

end Node

/-! ## Of a base with scripts -/

namespace ScriptLevel

theorem leaves_attach (limits : Bool) (base : Node) (level : ScriptLevel) :
    (level.attach limits base).leaves = base.leaves ++ Node.leavesOfList level.nodes := by
  obtain ⟨element, -, -, heq⟩ := attach_eq limits base level
  rw [heq]
  rfl

theorem leaves_foldl_attach (base : Node) (levels : List ScriptLevel) :
    (levels.foldl (attach false) base).leaves =
      base.leaves ++ Node.leavesOfList (levels.flatMap nodes) := by
  induction levels generalizing base with
  | nil => simp
  | cons level levels ih => simp [ih, leaves_attach]

theorem leaves_attachAll (limits : Bool) (base : Node) (levels : List ScriptLevel) :
    (attachAll limits base levels).leaves =
      base.leaves ++ Node.leavesOfList (levels.flatMap nodes) := by
  cases levels with
  | nil => simp [attachAll]
  | cons level levels => simp [attachAll, leaves_foldl_attach, leaves_attach]

end ScriptLevel

end FormulaMarkup
