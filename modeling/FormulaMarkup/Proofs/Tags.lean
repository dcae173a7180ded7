import FormulaMarkup.Proofs.RoundTrip
import Mathlib.Data.List.Infix

/-!
# The tags of markup are those of its nodes

An angle bracket is written only where a tag begins, and each node has one start tag and one end
tag. So no text of a formula and no setting can add a tag or close the whole before its end.
-/

namespace FormulaMarkup

/-- The number of places at which a pattern begins in a text. -/
def Text.occurrences (pattern s : List Char) : Nat := s.tails.countP (pattern.isPrefixOf ·)

namespace Markup

/-! ## Counting tags -/

theorem count_lt_eq (s : List Char) : s.count '<' = (tags s).length := by
  induction s with
  | nil => rfl
  | cons c s ih =>
    rw [List.count_cons, tags]
    split <;> simp_all

/-- A pattern without an angle bracket is looked for up to the next one. -/
theorem isPrefixOf_text {p : List Char} (h : '<' ∉ p) (s : List Char) :
    p.isPrefixOf (text s) = p.isPrefixOf s := by
  induction p generalizing s with
  | nil => simp
  | cons c p ih =>
    rw [List.mem_cons, not_or] at h
    cases s with
    | nil => rfl
    | cons d s =>
      by_cases hd : d = '<'
      · subst hd
        simp [text, List.isPrefixOf, Ne.symm h.1]
      · have htext : text (d :: s) = d :: text s := List.takeWhile_cons_of_pos (by simpa using hd)
        rw [htext, List.isPrefixOf, List.isPrefixOf, ih h.2]

/-- What begins with an angle bracket occurs only where a tag begins. -/
theorem occurrences_eq {p : List Char} (h : '<' ∉ p) (s : List Char) :
    Text.occurrences ('<' :: p) s = (tags s).countP (p.isPrefixOf ·) := by
  induction s with
  | nil => rfl
  | cons c s ih =>
    rw [Text.occurrences] at ih ⊢
    rw [List.tails_cons, List.countP_cons, ih, tags]
    by_cases hc : c = '<'
    · subst hc
      rw [if_pos rfl, List.countP_cons, isPrefixOf_text h]
      simp [List.isPrefixOf]
    · simp [List.isPrefixOf, hc, Ne.symm hc]

/-! ## The tags of a node -/

/-- Whether a tag counts depends only on its element, and on whether it is a start or an end tag. -/
structure Counts (q : List Char → Bool) (start stop : Element → Bool) : Prop where
  start (element : Element) (attributes : Attributes) (s : List Char) :
    q (startBody element attributes ++ s) = start element
  stop (element : Element) (s : List Char) : q (endBody element ++ s) = stop element

namespace Counts

variable {q : List Char → Bool} {start stop : Element → Bool}

theorem countP_startTag (h : Counts q start stop) (element : Element) (attributes : Attributes)
    (s : List Char) :
    (tags (startTag element attributes ++ s)).countP q =
      (tags s).countP q + if start element then 1 else 0 := by
  rw [tags_startTag, List.countP_cons, h.start]

theorem countP_endTag (h : Counts q start stop) (element : Element) (s : List Char) :
    (tags (endTag element ++ s)).countP q = (tags s).countP q + if stop element then 1 else 0 := by
  rw [tags_endTag, List.countP_cons, h.stop]

mutual

/-- The tags that count are the start tags and the end tags of the nodes that count. -/
theorem countP_renderElement (h : Counts q start stop) (layout : Layout) : (node : Node) →
    node.LeafOrContainer → (s : List Char) →
    (tags (renderElement layout node ++ s)).countP q =
      node.subtrees.countP (start ·.element) + node.subtrees.countP (stop ·.element) +
        (tags s).countP q
  | ⟨element, attributes, children, some content⟩, hnode, s => by
    obtain rfl : children = [] := (Node.leafOrContainer_iff.1 hnode).1 nofun
    rw [renderElement, List.append_assoc, h.countP_startTag, List.append_assoc,
      tags_append (lt_notMem_escapeContent _), h.countP_endTag]
    simp +arith [Node.subtrees, Node.subtreesOfList, List.countP_cons]
  | ⟨element, attributes, [], none⟩, _, s => by
    rw [renderElement, List.append_assoc, h.countP_startTag, h.countP_endTag]
    simp +arith [Node.subtrees, Node.subtreesOfList, List.countP_cons]
  | ⟨element, attributes, child :: children, none⟩, hnode, s => by
    have hchildren := (Node.leafOrContainer_iff.1 hnode).2
    rw [renderElement, List.append_assoc, h.countP_startTag, List.append_assoc,
      h.countP_renderEach layout.below (child :: children) hchildren, List.append_assoc,
      tags_append (lt_notMem_lineStart layout), h.countP_endTag]
    simp +arith [Node.subtrees, List.countP_cons]

theorem countP_renderEach (h : Counts q start stop) (layout : Layout) : (nodes : List Node) →
    (∀ node ∈ nodes, node.LeafOrContainer) → (s : List Char) →
    (tags (renderEach layout nodes ++ s)).countP q =
      (Node.subtreesOfList nodes).countP (start ·.element) +
        (Node.subtreesOfList nodes).countP (stop ·.element) + (tags s).countP q
  | [], _, s => by simp [renderEach, Node.subtreesOfList]
  | node :: nodes, hnodes, s => by
    rw [List.forall_mem_cons] at hnodes
    rw [renderEach, List.append_assoc, tags_append (lt_notMem_lineStart layout), List.append_assoc,
      h.countP_renderElement layout node hnodes.1, h.countP_renderEach layout nodes hnodes.2]
    simp +arith [Node.subtreesOfList]

end

end Counts

theorem counts_all : Counts (fun _ => true) (fun _ => true) (fun _ => true) :=
  ⟨fun _ _ _ => rfl, fun _ _ => rfl⟩

/-- Of two names between a slash and an angle bracket, neither begins the other. -/
theorem endBody_isPrefixOf (element other : Element) (s : List Char) :
    (endBody element).isPrefixOf (endBody other ++ s) = decide (other = element) := by
  cases element <;> cases other <;> rfl

theorem counts_endTag (element : Element) :
    Counts ((endBody element).isPrefixOf ·) (fun _ => false) (· = element) := by
  refine ⟨fun other attributes s => ?_, fun other s => endBody_isPrefixOf element other s⟩
  cases other <;> rfl

/-- Each node that is written has two tags. -/
theorem count_lt_renderElement (layout : Layout) {node : Node} (h : node.LeafOrContainer) :
    (renderElement layout node).count '<' = 2 * node.subtrees.length := by
  have hcount := counts_all.countP_renderElement layout node h []
  rw [List.append_nil, List.countP_true, ← count_lt_eq] at hcount
  rw [hcount, List.countP_true]
  simp +arith [tags]

/-- An end tag occurs once for each node of its element. -/
theorem occurrences_endTag (element : Element) (layout : Layout) {node : Node}
    (h : node.LeafOrContainer) :
    Text.occurrences (endTag element) (renderElement layout node) =
      node.subtrees.countP (·.element = element) := by
  have hcount := (counts_endTag element).countP_renderElement layout node h []
  have hcons : endTag element = '<' :: endBody element := rfl
  rw [List.append_nil] at hcount
  rw [hcons, occurrences_eq (lt_notMem_endBody element), hcount]
  simp [tags]

end Markup

/-! ## The markup of inputs -/

/-- Inside of a formula there is no other one. -/
theorem Node.Built.element_ne_math {node : Node} (h : node.Built) :
    ∀ part ∈ node.subtrees, part.element ≠ .math := by
  induction h with
  | leaf h =>
    refine forall_mem_subtrees.2 ⟨?_, by simp [Node.leaf]⟩
    rintro rfl
    simp [Element.isToken] at h
  | layout helement _ _ _ ih =>
    refine forall_mem_subtrees.2 ⟨?_, ih⟩
    rintro rfl
    cases helement
  | table _ _ _ _ ih =>
    refine forall_mem_subtrees.2 ⟨by rintro ⟨⟩, fun row hrow => ?_⟩
    obtain ⟨cells, hcells, rfl⟩ := List.mem_map.1 hrow
    refine forall_mem_subtrees.2 ⟨by rintro ⟨⟩, fun cell hcell => ?_⟩
    obtain ⟨nodes, hnodes, rfl⟩ := List.mem_map.1 hcell
    exact forall_mem_subtrees.2 ⟨by rintro ⟨⟩, ih cells hcells nodes hnodes⟩

theorem countP_math_compile (settings : Settings) (input : String) :
    (compile settings input).subtrees.countP (·.element = .math) = 1 := by
  have hnodes : ∀ part ∈ Node.subtreesOfList (Formula.nodes (Formula.ofInput input)),
      part.element ≠ .math := by
    intro part hpart
    obtain ⟨node, hnode, hpart⟩ := Node.mem_subtreesOfList.1 hpart
    exact (Formula.nodes_built _ node hnode).element_ne_math part hpart
  simpa [compile, Settings.assemble, Node.subtrees, Node.subtreesOfList] using hnodes

/-- The markup of an input begins with the start tag of the whole, in one layout or another. -/
theorem exists_convert_eq (settings : Settings) (input : String) :
    ∃ layout, (convert settings input).toList =
      Markup.renderElement layout (compile settings input) := by
  unfold convert
  split
  · exact ⟨.level 0, by simp [Markup.appendDocument, Markup.renderDocument]⟩
  · refine ⟨.compact, ?_⟩
    simp [Markup.append, Markup.render, Markup.Layout.ofIndent, Markup.Layout.lineStart]

/-- Neither a formula nor the settings can add markup: each node has two tags, and the whole begins
with its start tag and ends with its only end tag. -/
theorem convert_tags (settings : Settings) (input : String) :
    (convert settings input).toList.count '<' = 2 * (compile settings input).subtrees.length ∧
      "<math".toList <+: (convert settings input).toList ∧
      "</math>".toList <:+ (convert settings input).toList ∧
      Text.occurrences "</math>".toList (convert settings input).toList = 1 := by
  obtain ⟨layout, hlayout⟩ := exists_convert_eq settings input
  have hplain := compile_leafOrContainer settings input
  have hends : ∃ attributes inner, (convert settings input).toList =
      Markup.startTag .math attributes ++ (inner ++ Markup.endTag .math) := by
    refine ⟨settings.mathAttributes, ?_⟩
    rw [hlayout, compile, Settings.assemble, Markup.renderElement]
    exact ⟨_, congrArg _ (List.append_assoc _ _ _).symm⟩
  obtain ⟨attributes, inner, heq⟩ := hends
  refine ⟨?count, ?start, ?stop, ?once⟩
  case count => rw [hlayout, Markup.count_lt_renderElement layout hplain]
  case start =>
    rw [heq]
    refine ⟨attributes.toList.flatMap Markup.renderAttribute ++
      '>' :: (inner ++ Markup.endTag .math), ?_⟩
    simp [Markup.startTag, Element.name]
  case stop =>
    rw [heq, ← List.append_assoc]
    exact List.suffix_append _ _
  case once =>
    have honce := Markup.occurrences_endTag .math layout hplain
    rw [countP_math_compile, ← hlayout] at honce
    exact honce

end FormulaMarkup
