import FormulaMarkup.Proofs.Construction
import FormulaMarkup.Proofs.Markup.Decoder

/-!
# Markup tells the tree

What is written of a node can be read back in every layout, since an angle bracket begins a tag
wherever it stands. Only an empty text is not told from no text.
-/

namespace FormulaMarkup

namespace Node

/-- Each node is a leaf, with a text and no children, or a container, with no text. -/
def LeafOrContainer (root : Node) : Prop :=
  ∀ node ∈ root.subtrees, node.text ≠ none → node.children = []

theorem leafOrContainer_iff {root : Node} :
    root.LeafOrContainer ↔ (root.text ≠ none → root.children = []) ∧
      ∀ child ∈ root.children, child.LeafOrContainer :=
  forall_mem_subtrees

mutual

/-- The node with an empty text in place of each container that has no children. -/
def filled : Node → Node
  | ⟨element, attributes, [], none⟩ => ⟨element, attributes, [], some ""⟩
  | ⟨element, attributes, children, text⟩ => ⟨element, attributes, filledOfList children, text⟩

def filledOfList : List Node → List Node
  | [] => []
  | node :: nodes => node.filled :: filledOfList nodes

end

end Node

namespace Markup

/-! ## Nodes -/

namespace Frame

@[simp] theorem append_nil (frame : Frame) : frame.append [] = frame := by
  simp [append]

@[simp] theorem append_append (frame : Frame) (xs ys : List Node) :
    (frame.append xs).append ys = frame.append (xs ++ ys) := by
  simp [append]

end Frame

mutual

/-- The reader gives each node that has been written to the one around it. -/
theorem run_renderElement (layout : Layout) : (node : Node) → node.LeafOrContainer →
    (frame : Frame) → (frames : List Frame) → (s : List Char) →
    run (frame :: frames) (renderElement layout node ++ s) =
      run (frame.append [node.filled] :: frames) s
  | ⟨element, attributes, children, some content⟩, h, frame, frames, s => by
    obtain rfl : children = [] := (Node.leafOrContainer_iff.1 h).1 nofun
    have hcontent := lt_notMem_escapeContent content.toList
    rw [renderElement, List.append_assoc, run_startTag, List.append_assoc, run_append hcontent,
      run_endTag, text_append hcontent, text_endTag, List.append_nil, Frame.node,
      unescape_escapeContent, String.ofList_toList]
    rfl
  | ⟨element, attributes, [], none⟩, h, frame, frames, s => by
    rw [renderElement, List.append_assoc, run_startTag, run_endTag, text_endTag]
    rfl
  | ⟨element, attributes, child :: children, none⟩, h, frame, frames, s => by
    have hchildren := (Node.leafOrContainer_iff.1 h).2
    rw [renderElement, List.append_assoc, run_startTag, List.append_assoc,
      run_renderEach layout.below (child :: children) hchildren, List.append_assoc,
      run_append (lt_notMem_lineStart layout), run_endTag]
    rfl

theorem run_renderEach (layout : Layout) : (nodes : List Node) →
    (∀ node ∈ nodes, node.LeafOrContainer) → (frame : Frame) → (frames : List Frame) →
    (s : List Char) →
    run (frame :: frames) (renderEach layout nodes ++ s) =
      run (frame.append (Node.filledOfList nodes) :: frames) s
  | [], _, frame, frames, s => by simp [renderEach, Node.filledOfList]
  | node :: nodes, h, frame, frames, s => by
    rw [List.forall_mem_cons] at h
    rw [renderEach, List.append_assoc, run_append (lt_notMem_lineStart layout), List.append_assoc,
      run_renderElement layout node h.1, run_renderEach layout nodes h.2, Frame.append_append]
    rfl

end

/-- What has been written on its own is read back. -/
theorem decode_renderElement {a : List Char} (hblank : '<' ∉ a) (layout : Layout) {node : Node}
    (h : node.LeafOrContainer) :
    decode (String.ofList (a ++ renderElement layout node)) = some node.filled := by
  have hrun := run_renderElement layout node h .document [] []
  rw [List.append_nil] at hrun
  rw [decode, String.toList_ofList, run_append hblank, hrun]
  rfl

theorem decode_append (indent : Nat) {node : Node} (h : node.LeafOrContainer) :
    decode (append "" indent node) = some node.filled := by
  rw [append, render, String.empty_append]
  exact decode_renderElement (lt_notMem_lineStart _) _ h

theorem decode_appendDocument {node : Node} (h : node.LeafOrContainer) :
    decode (appendDocument "" node) = some node.filled := by
  rw [appendDocument, renderDocument, String.empty_append]
  exact decode_renderElement List.not_mem_nil _ h

end Markup

/-! ## The markup of inputs -/

namespace Node

/-- A node from which it can be told whether it has a text. -/
structure Told (node : Node) : Prop where
  leaf : node.text ≠ none → node.children = [] ∧ node.element.hasText = true
  void : node.text = none → node.children = [] → node.element.hasText = false

mutual

/-- The node without the texts of elements that have none. -/
def cleared : Node → Node
  | ⟨element, attributes, children, text⟩ =>
    ⟨element, attributes, clearedOfList children, if element.hasText then text else none⟩

def clearedOfList : List Node → List Node
  | [] => []
  | node :: nodes => node.cleared :: clearedOfList nodes

end

mutual

theorem cleared_filled : (node : Node) → (∀ part ∈ node.subtrees, part.Told) →
    node.filled.cleared = node
  | ⟨element, attributes, children, some text⟩, h => by
    obtain ⟨rfl, htext⟩ : children = [] ∧ element.hasText = true :=
      (forall_mem_subtrees.1 h).1.leaf nofun
    simp [filled, filledOfList, cleared, clearedOfList, htext]
  | ⟨element, attributes, [], none⟩, h => by
    have htext : element.hasText = false := (forall_mem_subtrees.1 h).1.void rfl rfl
    simp [filled, cleared, clearedOfList, htext]
  | ⟨element, attributes, child :: children, none⟩, h => by
    have hchildren := clearedOfList_filledOfList (child :: children) (forall_mem_subtrees.1 h).2
    simp [filled, cleared, hchildren]

theorem clearedOfList_filledOfList : (nodes : List Node) →
    (∀ node ∈ nodes, ∀ part ∈ node.subtrees, part.Told) →
    clearedOfList (filledOfList nodes) = nodes
  | [], _ => rfl
  | node :: nodes, h => by
    rw [List.forall_mem_cons] at h
    rw [filledOfList, clearedOfList, cleared_filled node h.1, clearedOfList_filledOfList nodes h.2]

end

theorem container_told {element : Element} {attributes : Attributes} {children : List Node}
    (hvoid : element.hasText = true → children ≠ [])
    (h : ∀ child ∈ children, ∀ part ∈ child.subtrees, part.Told) :
    ∀ part ∈ subtrees ⟨element, attributes, children, none⟩, part.Told := by
  refine forall_mem_subtrees.2 ⟨⟨fun htext => absurd rfl htext, fun _ hnil => ?_⟩, h⟩
  exact Bool.eq_false_iff.2 fun htext => hvoid htext hnil

theorem Built.told {node : Node} (h : node.Built) : ∀ part ∈ node.subtrees, part.Told := by
  induction h with
  | @leaf element text h =>
    have htext : element.hasText = true := by
      rcases h with ⟨htoken, -⟩ | rfl
      · simp [Element.hasText, htoken]
      · rfl
    refine forall_mem_subtrees.2 ⟨⟨fun _ => ⟨rfl, htext⟩, nofun⟩, nofun⟩
  | layout _ _ hnonempty _ ih => exact container_told hnonempty ih
  | table _ _ _ _ ih =>
    refine container_told nofun fun node hnode => ?_
    obtain ⟨row, hrow, rfl⟩ := List.mem_map.1 hnode
    refine container_told nofun fun node hnode => ?_
    obtain ⟨cell, hcell, rfl⟩ := List.mem_map.1 hnode
    exact container_told nofun (ih row hrow cell hcell)

end Node

theorem compile_told (settings : Settings) (input : String) :
    ∀ part ∈ (compile settings input).subtrees, part.Told := by
  refine Node.container_told nofun fun style hstyle => ?_
  rw [List.mem_singleton.1 hstyle]
  exact Node.container_told nofun fun node hnode =>
    (Formula.nodes_built _ node hnode).told

theorem compile_leafOrContainer (settings : Settings) (input : String) :
    (compile settings input).LeafOrContainer :=
  fun part hpart htext => ((compile_told settings input part hpart).leaf htext).1

/-- The tree of an input is what the reader tells of its markup, without the texts of elements that
have none. -/
theorem decode_convert (settings : Settings) (input : String) :
    (Markup.decode (convert settings input)).map Node.cleared = some (compile settings input) := by
  have hplain := compile_leafOrContainer settings input
  have hdecode : Markup.decode (convert settings input) = some (compile settings input).filled := by
    unfold convert
    split
    · exact Markup.decode_appendDocument hplain
    · exact Markup.decode_append 0 hplain
  rw [hdecode, Option.map_some, Node.cleared_filled _ (compile_told settings input)]

/-- One reader tells every node from its markup in each layout, so two inputs have the same markup
only if they have the same tree. -/
theorem markup_determines_tree :
    (∀ node : Node, node.LeafOrContainer →
      (∀ indent, Markup.decode (Markup.append "" indent node) = some node.filled) ∧
      Markup.decode (Markup.appendDocument "" node) = some node.filled) ∧
    ∀ (settings : Settings) (a b : String),
      convert settings a = convert settings b ↔ compile settings a = compile settings b := by
  refine ⟨fun node h => ⟨fun indent => Markup.decode_append indent h,
    Markup.decode_appendDocument h⟩, fun settings a b => ⟨fun h => ?_, fun h => ?_⟩⟩
  · have hdecode := decode_convert settings a
    rw [h, decode_convert settings b] at hdecode
    exact (Option.some.inj hdecode).symm
  · rw [convert, convert, h]

/-- A text that looks like markup, and a container that turns into an empty text. -/
theorem markup_determines_tree_entities :
    let text := (Node.leaf .mtext "a\n  </mi>&lt; \"").setAttr .mathcolor "\">\n&<"
    let node := Node.row [text, .void .mspace]
    node.LeafOrContainer ∧
      Markup.decode (Markup.append "" 2 node) = some (.row [text, .leaf .mspace ""]) := by
  intro text node
  have hnode : node.LeafOrContainer := by
    unfold Node.LeafOrContainer
    decide
  exact ⟨hnode, (markup_determines_tree.1 node hnode).1 2⟩

end FormulaMarkup
