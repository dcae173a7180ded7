import FormulaMarkup.Proofs.Brackets.BarUses
import FormulaMarkup.Proofs.Brackets.Enclosed
import FormulaMarkup.Proofs.Markup.Scripts
import FormulaMarkup.Proofs.Markup.Shape

/-!
# What no notice tells of

An input without notices has all its brackets matched, and each group of bars is closed. A bar to
which no other belongs is not told of: it stands in the markup as a row of its own.
-/

namespace FormulaMarkup

namespace Node

/-- What stands for a bar to which no other belongs. -/
def loneBar : Node := .row [.leaf .mo "|"]

variable {node root child : Node} {nodes : List Node}

theorem subtrees_eq (root : Node) : root.subtrees = root :: subtreesOfList root.children := by
  cases root
  rw [subtrees]

theorem mem_subtrees_self (node : Node) : node ∈ node.subtrees := by
  rw [subtrees_eq]
  exact List.mem_cons_self

theorem mem_subtrees_of_child (hchild : child ∈ root.children) (h : node ∈ child.subtrees) :
    node ∈ root.subtrees := by
  rw [subtrees_eq]
  exact List.mem_cons_of_mem _ (mem_subtreesOfList.2 ⟨child, hchild, h⟩)

theorem mem_subtrees_singleOrRow (h : node ∈ subtreesOfList nodes) :
    node ∈ (singleOrRow nodes).subtrees := by
  unfold singleOrRow
  split
  · simpa [subtreesOfList] using h
  · exact List.mem_cons_of_mem _ h

end Node

theorem Word.barNode_eq {word : Word} (role : word.role = .leftRight) :
    word.barNode = Node.loneBar := by
  have hentries : ∀ entry ∈ Symbol.entries, entry.2.role = .leftRight →
      entry.2.element = .mo ∧ entry.2.output = "|" := by
    decide +kernel
  obtain ⟨helement, houtput⟩ := hentries _ word.mem_entries role
  rw [barNode, Node.loneBar, helement, houtput]

/-! ## Nodes inside of fragments -/

namespace Fragment

/-- The node is inside of the fragment, at a place that all forms of the fragment have. -/
inductive Holds (node : Node) : Fragment → Prop where
  | node {n : Node} (text : n.text = none) (h : node ∈ n.subtrees) : Holds node (.node n)
  | group {opening : Symbol} {closing : Option Symbol} {content : List Fragment} {bars : Bool}
    {fragment : Fragment} (hmem : fragment ∈ content) (h : Holds node fragment) :
    Holds node (.group opening closing content bars)

/-- The node is inside of one of the fragments. -/
def ListHolds (node : Node) (fragments : List Fragment) : Prop :=
  ∃ fragment ∈ fragments, Holds node fragment

variable {node : Node} {fragment : Fragment} {fragments : List Fragment}

theorem mem_subtreesOfList_nodes (h : Holds node fragment) :
    node ∈ Node.subtreesOfList fragment.nodes := by
  induction h with
  | @node n _ h => exact Node.mem_subtreesOfList.2 ⟨n, List.mem_singleton_self n, h⟩
  | @group opening closing content bars fragment hmem _ ih =>
    obtain ⟨root, hroot, h⟩ := Node.mem_subtreesOfList.1 ih
    refine Node.mem_subtreesOfList.2 ⟨_, List.mem_singleton_self _, ?_⟩
    refine Node.mem_subtrees_of_child (List.mem_append_right _ (List.mem_append_left _ ?_)) h
    rw [nodesOfList_eq_flatMap]
    exact List.mem_flatMap.2 ⟨fragment, hmem, hroot⟩

theorem ListHolds.mem_subtreesOfList (h : ListHolds node fragments) :
    node ∈ Node.subtreesOfList (nodesOfList fragments) := by
  obtain ⟨fragment, hmem, h⟩ := h
  obtain ⟨root, hroot, h⟩ := Node.mem_subtreesOfList.1 (mem_subtreesOfList_nodes h)
  rw [nodesOfList_eq_flatMap]
  exact Node.mem_subtreesOfList.2 ⟨root, List.mem_flatMap.2 ⟨fragment, hmem, hroot⟩, h⟩

theorem Holds.single (h : Holds node fragment) : node ∈ fragment.single.subtrees :=
  Node.mem_subtrees_singleOrRow (mem_subtreesOfList_nodes h)

theorem Holds.argument (h : Holds node fragment) : node ∈ fragment.argument.subtrees := by
  unfold Fragment.argument
  split
  · cases h with
    | group hmem h => exact Node.mem_subtrees_singleOrRow (ListHolds.mem_subtreesOfList ⟨_, hmem, h⟩)
  · exact h.single

theorem Holds.not_isComma (h : Holds node fragment) : fragment.isComma = false := by
  cases h with
  | node text _ => simp [isComma, Node.isOperator, text]
  | group => rfl

end Fragment

/-! ## Tables -/

open Fragment (Holds ListHolds)

section

variable {node : Node} {content : List Fragment} {fragment : Fragment}

theorem TableRow.exists_mem_cellsOf (hmem : fragment ∈ content) (h : fragment.isComma = false) :
    ∃ cell ∈ cellsOf content, fragment ∈ cell := by
  induction content with
  | nil => cases hmem
  | cons first content ih =>
    simp only [cellsOf]
    rcases List.mem_cons.1 hmem with rfl | hmem
    · rw [if_neg (by simp [h])]
      split
      · exact ⟨[fragment], by simp⟩
      · next cell cells _ => exact ⟨fragment :: cell, by simp⟩
    · obtain ⟨cell, hcell, hin⟩ := ih hmem
      split
      · exact ⟨cell, List.mem_cons_of_mem _ hcell, hin⟩
      · split
        · next hnil => rw [hnil] at hcell; cases hcell
        · next cell' cells hcells =>
          rw [hcells] at hcell
          rcases List.mem_cons.1 hcell with rfl | hcell
          · exact ⟨first :: cell, List.mem_cons_self, List.mem_cons_of_mem _ hin⟩
          · exact ⟨cell, List.mem_cons_of_mem _ hcell, hin⟩

theorem TableRow.mem_subtrees_node {row : TableRow} (h : ListHolds node row.content) :
    node ∈ row.node.subtrees := by
  obtain ⟨fragment, hmem, h⟩ := h
  obtain ⟨cell, hcell, hin⟩ := exists_mem_cellsOf hmem h.not_isComma
  have hcells := ListHolds.mem_subtreesOfList ⟨fragment, hin, h⟩
  refine Node.mem_subtrees_of_child (List.mem_map.2 ⟨cell, hcell, rfl⟩) ?_
  exact List.mem_cons_of_mem _ hcells

/-- All but the commas between the rows is in a row. -/
theorem Table.exists_row {rows : List TableRow} (hrows : rows? content = some rows)
    (hmem : fragment ∈ content) (h : fragment.isComma = false) :
    ∃ row ∈ rows, fragment = row.group := by
  fun_induction rows? content generalizing rows with
  | case1 => cases hmem
  | case2 first =>
    obtain ⟨row, hrow, rfl⟩ := Option.map_eq_some_iff.1 hrows
    obtain rfl := List.mem_singleton.1 hmem
    exact ⟨row, List.mem_cons_self, TableRow.eq_group_of_ofFragment? hrow⟩
  | case3 first comma fragments hcomma row more hmore hrow ih =>
    cases hrows
    rcases List.mem_cons.1 hmem with rfl | hmem
    · exact ⟨row, List.mem_cons_self, TableRow.eq_group_of_ofFragment? hrow⟩
    · rcases List.mem_cons.1 hmem with rfl | hmem
      · rw [hcomma] at h
        cases h
      · obtain ⟨row', hrow', rfl⟩ := ih hmore hmem
        exact ⟨row', List.mem_cons_of_mem _ hrow', rfl⟩
  | case4 => cases hrows
  | case5 => cases hrows

theorem Table.mem_subtrees_node {rows : List TableRow} {row : TableRow} (hrow : row ∈ rows)
    (h : ListHolds node row.content) : node ∈ (Table.node rows).subtrees := by
  have hchild : row.node ∈ (Table.node rows).children := by
    unfold Table.node
    simp only
    split <;> exact List.mem_map_of_mem hrow
  exact Node.mem_subtrees_of_child hchild (TableRow.mem_subtrees_node h)

theorem Table.text_node (rows : List TableRow) : (Table.node rows).text = none := by
  unfold Table.node
  simp only
  split <;> rfl

/-- A table keeps what is in its rows. -/
theorem Table.listHolds_resolve (h : ListHolds node content) :
    ListHolds node (Table.resolve content) := by
  obtain ⟨fragment, hmem, hfragment⟩ := h
  unfold Table.resolve
  split
  · next table htable =>
    unfold ofContent? at htable
    split at htable
    · next first second rows hrows =>
      split at htable
      · cases htable
        obtain ⟨row, hrow, rfl⟩ := exists_row hrows hmem hfragment.not_isComma
        cases hfragment with
        | group hin h =>
          exact ⟨_, List.mem_cons_self, .node (text_node _) (mem_subtrees_node hrow ⟨_, hin, h⟩)⟩
      · cases htable
    · cases htable
  · exact ⟨fragment, hmem, hfragment⟩

end

/-! ## Scripts -/

section

variable {node base : Node} {limits : Bool}

theorem ScriptLevel.mem_subtrees_attach {level : ScriptLevel}
    (h : ∃ child ∈ base :: level.nodes, node ∈ child.subtrees) :
    node ∈ (level.attach limits base).subtrees := by
  obtain ⟨child, hchild, h⟩ := h
  obtain ⟨element, -, -, heq⟩ := attach_eq limits base level
  rw [heq]
  exact Node.mem_subtrees_of_child hchild h

theorem ScriptLevel.mem_subtrees_attachAll {levels : List ScriptLevel}
    (h : ∃ child ∈ base :: levels.flatMap ScriptLevel.nodes, node ∈ child.subtrees) :
    node ∈ (attachAll limits base levels).subtrees := by
  have hfold : ∀ (levels : List ScriptLevel) (base : Node),
      (∃ child ∈ base :: levels.flatMap ScriptLevel.nodes, node ∈ child.subtrees) →
      node ∈ (levels.foldl (attach false) base).subtrees := by
    intro levels
    induction levels with
    | nil => simp
    | cons level levels ih =>
      rintro base ⟨child, hchild, h⟩
      rw [List.flatMap_cons, ← List.cons_append] at hchild
      refine ih _ ?_
      rcases List.mem_append.1 hchild with hchild | hchild
      · exact ⟨_, List.mem_cons_self, mem_subtrees_attach ⟨child, hchild, h⟩⟩
      · exact ⟨child, List.mem_cons_of_mem _ hchild, h⟩
  cases levels with
  | nil => simpa [attachAll] using h
  | cons level levels =>
    obtain ⟨child, hchild, h⟩ := h
    rw [List.flatMap_cons, ← List.cons_append] at hchild
    refine hfold levels _ ?_
    rcases List.mem_append.1 hchild with hchild | hchild
    · exact ⟨_, List.mem_cons_self, mem_subtrees_attach ⟨child, hchild, h⟩⟩
    · exact ⟨child, List.mem_cons_of_mem _ hchild, h⟩

/-- The node is inside of one of the scripts. -/
def ChainHolds (node : Node) (chain : List (Marker × Node)) : Prop :=
  ∃ script ∈ chain, node ∈ script.2.subtrees

theorem Fragment.holds_withScripts {fragment : Fragment} {chain : List (Marker × Node)}
    (h : Holds node fragment ∨ ChainHolds node chain) :
    Holds node (withScripts limits fragment chain) := by
  cases chain with
  | nil =>
    rcases h with h | ⟨script, hscript, -⟩
    · exact h
    · cases hscript
  | cons script chain =>
    have hlevels : ScriptLevel.ofChain (script :: chain) ≠ [] := by
      unfold ScriptLevel.ofChain
      split <;> simp_all
    refine .node (ScriptLevel.text_attachAll limits hlevels)
      (ScriptLevel.mem_subtrees_attachAll ?_)
    rw [ScriptLevel.flatMap_nodes_ofChain]
    rcases h with h | ⟨script', hscript, h⟩
    · exact ⟨_, List.mem_cons_self, h.single⟩
    · have hmem := (ScriptLevel.arrange_perm (script :: chain)).mem_iff.2 hscript
      exact ⟨_, List.mem_cons_of_mem _ (List.mem_map_of_mem hmem), h⟩

end

/-! ## Formulas -/

theorem Fragment.holds_ofGroup {node : Node} {opening : Word} {role : Role}
    {closing : Option (WordOf role)} {content : List Fragment} {bars : Bool}
    (h : ListHolds node content) : Holds node (ofGroup opening closing content bars) := by
  cases closing with
  | none =>
    obtain ⟨fragment, hmem, h⟩ := h
    exact .group hmem h
  | some word =>
    obtain ⟨fragment, hmem, h⟩ := Table.listHolds_resolve h
    exact .group hmem h

namespace Word

variable {node argument argument' : Node} (word : Word)

theorem holds_unaryNode (kind : UnaryKind) (h : node ∈ argument.subtrees) :
    Holds node (.node (word.unaryNode kind argument)) := by
  have hchild : argument ∈ (word.unaryNode kind argument).children := by
    cases kind <;> simp [unaryNode, Node.container, Node.setAttr, Node.row]
  exact .node (text_unaryNode word kind argument) (Node.mem_subtrees_of_child hchild h)

theorem holds_binaryNode (order : ArgOrder)
    (h : node ∈ argument.subtrees ∨ node ∈ argument'.subtrees) :
    Holds node (.node (word.binaryNode order argument argument')) := by
  have hchildren : ∀ child ∈ [argument, argument'],
      child ∈ (word.binaryNode order argument argument').children := by
    cases order <;> simp [binaryNode, Node.container]
  refine .node (text_binaryNode word order argument argument') ?_
  rcases h with h | h
  · exact Node.mem_subtrees_of_child (hchildren _ (by simp)) h
  · exact Node.mem_subtrees_of_child (hchildren _ (by simp)) h

end Word

open Fragment (holds_withScripts holds_ofGroup)

mutual

/-- In an operand without notices, a bar that stands alone shows. -/
theorem Operand.holds_loneBar {k : Nat} : (operand : Operand) → operand.notices = [] → (i : Nat) →
    (k, none) ∈ operand.barUses i → Holds .loneBar operand.fragment
  | .number _, _, _, h | .text _, _, _, h | .character _, _, _, h | .leaf .., _, _, h
  | .keyword .., _, _, h | .strayClosing .., _, _, h | .noArgument .., _, _, h
  | .verbatim .., _, _, h => nomatch h
  | .beyondLimit _ _, hn, _, _ => nomatch hn
  | .loneBar word role, _, _, _ => by
    rw [Operand.fragment, Word.barNode_eq role]
    exact .node rfl (Node.mem_subtrees_self _)
  | .group opening _ body closing, hn, i, h => by
    exact holds_ofGroup
      (Term.listHolds_loneBar body (List.append_eq_nil_iff.1 hn).1 (i + 1) h)
  | .bars opening _ body closing, hn, i, h => by
    obtain ⟨hbody, hclosing⟩ := List.append_eq_nil_iff.1 hn
    cases closing with
    | none => cases hclosing
    | some word =>
      rcases List.mem_cons.1 h with heq | h
      · cases heq
      · exact holds_ofGroup (Term.listHolds_loneBar body hbody (i + 1) h)
  | .function _ _ scripts argument, hn, i, h => by
    obtain ⟨hscripts, hargument⟩ := List.append_eq_nil_iff.1 hn
    refine .node rfl ?_
    rcases List.mem_append.1 h with h | h
    · have hchain := Scripts.chainHolds_loneBar scripts hscripts _ h
      exact Node.mem_subtrees_of_child List.mem_cons_self (holds_withScripts (.inr hchain)).single
    · have hshown := Operand.holds_loneBar argument hargument _ h
      exact Node.mem_subtrees_of_child (List.mem_cons_of_mem _ List.mem_cons_self) hshown.single
  | .functionAlone _ _ scripts, hn, _, _ => by
    cases (List.append_eq_nil_iff.1 hn).2
  | .unary word kind _ argument, hn, _, h =>
    word.holds_unaryNode kind (Operand.holds_loneBar argument hn _ h).argument
  | .noSecond _ _ _ first, hn, _, _ => by
    cases (List.append_eq_nil_iff.1 hn).2
  | .binary word order _ first second, hn, i, h => by
    obtain ⟨hfirst, hsecond⟩ := List.append_eq_nil_iff.1 hn
    refine word.holds_binaryNode order ?_
    rcases List.mem_append.1 h with h | h
    · exact .inl (Operand.holds_loneBar first hfirst _ h).argument
    · exact .inr (Operand.holds_loneBar second hsecond _ h).argument

theorem Scripts.chainHolds_loneBar {k : Nat} : (scripts : Scripts) → scripts.notices = [] →
    (i : Nat) → (k, none) ∈ scripts.barUses i → ChainHolds .loneBar scripts.chain
  | .done _, _, _, h => nomatch h
  | .cons marker operand more, hn, _, h => by
    obtain ⟨hoperand, hmore⟩ := List.append_eq_nil_iff.1 hn
    rcases List.mem_append.1 h with h | h
    · exact ⟨_, List.mem_cons_self, (Operand.holds_loneBar operand hoperand _ h).argument⟩
    · obtain ⟨script, hscript, h⟩ := Scripts.chainHolds_loneBar more hmore _ h
      exact ⟨script, List.mem_cons_of_mem _ hscript, h⟩

theorem Term.holds_loneBar {k : Nat} : (term : Term) → term.notices = [] → (i : Nat) →
    (k, none) ∈ term.barUses i → Holds .loneBar term.fragment
  | .scripted base scripts, hn, _, h => by
    obtain ⟨hbase, hscripts⟩ := List.append_eq_nil_iff.1 hn
    refine holds_withScripts ?_
    rcases List.mem_append.1 h with h | h
    · exact .inl (Operand.holds_loneBar base hbase _ h)
    · exact .inr (Scripts.chainHolds_loneBar scripts hscripts _ h)
  | .noDenominator base scripts, hn, _, _ => by
    cases (List.append_eq_nil_iff.1 (List.append_eq_nil_iff.1 hn).2).2
  | .fraction base scripts base' scripts', hn, _, h => by
    obtain ⟨hbase, hn⟩ := List.append_eq_nil_iff.1 hn
    obtain ⟨hscripts, hn⟩ := List.append_eq_nil_iff.1 hn
    obtain ⟨hbase', hscripts'⟩ := List.append_eq_nil_iff.1 hn
    refine .node rfl ?_
    rw [Term.barUses, List.mem_append, List.mem_append, List.mem_append] at h
    rcases h with h | h | h | h
    · exact Node.mem_subtrees_of_child List.mem_cons_self
        (holds_withScripts (.inl (Operand.holds_loneBar base hbase _ h))).argument
    · exact Node.mem_subtrees_of_child List.mem_cons_self
        (holds_withScripts (.inr (Scripts.chainHolds_loneBar scripts hscripts _ h))).argument
    · exact Node.mem_subtrees_of_child (List.mem_cons_of_mem _ List.mem_cons_self)
        (holds_withScripts (.inl (Operand.holds_loneBar base' hbase' _ h))).argument
    · exact Node.mem_subtrees_of_child (List.mem_cons_of_mem _ List.mem_cons_self)
        (holds_withScripts (.inr (Scripts.chainHolds_loneBar scripts' hscripts' _ h))).argument

theorem Term.listHolds_loneBar {k : Nat} : (terms : List Term) → Term.noticesOfList terms = [] →
    (i : Nat) → (k, none) ∈ Term.barUsesOfList terms i →
      ListHolds .loneBar (Term.fragments terms)
  | [], _, _, h => nomatch h
  | term :: terms, hn, _, h => by
    obtain ⟨hterm, hterms⟩ := List.append_eq_nil_iff.1 hn
    rcases List.mem_append.1 h with h | h
    · exact ⟨_, List.mem_cons_self, Term.holds_loneBar term hterm _ h⟩
    · obtain ⟨fragment, hmem, h⟩ := Term.listHolds_loneBar terms hterms _ h
      exact ⟨fragment, List.mem_cons_of_mem _ hmem, h⟩

end

/-- What an input without notices is like. Its brackets are all matched, and each of its bars is
used once. Bars that make up a group are a bar and the first one that belongs to it. To the others
no bar belongs: nothing tells of them, and each stands in the markup as a row of its own. -/
theorem bars_of_notices_eq_nil (settings : Settings) (input : String) (h : notices input = []) :
    let uses := Formula.barUses (Formula.ofInput input)
    let after := fun k => (lexemes input).drop (k + 1)
    Balanced (lexemes input) ∧
    ((Formula.usesPlaces uses).Nodup ∧
      ∀ k, k ∈ Formula.usesPlaces uses ↔ ∃ x ∈ (lexemes input)[k]?, x.role? = some .leftRight) ∧
    (∀ k j, (k, some j) ∈ uses → ∃ between bar left,
      Formula.FirstBarAfter (after k) between bar left ∧ j = k + 1 + between.length) ∧
    ∀ k, (k, none) ∈ uses →
      (¬ ∃ between bar left, Formula.BarAfter (after k) between bar left) ∧
        Node.loneBar ∈ (compile settings input).subtrees := by
  intro uses after
  have hshallow : Formula.Shallow (notices input) := by simp [Formula.Shallow, h]
  obtain ⟨huses, hbars⟩ := Formula.usesBars_parse hshallow
  have hnodup : (Formula.usesPlaces uses).Nodup :=
    huses.nodup_iff.2 (Formula.nodup_barPlaces 0 (lexemes input))
  refine ⟨Formula.balanced_of_notices_eq_nil h, ⟨hnodup, fun k => ?_⟩, fun k j hk => ?_, fun k hk => ⟨?_, ?_⟩⟩
  · exact huses.mem_iff.trans Formula.mem_barPlaces
  · cases hbars _ hk with
    | paired _ hfirst => exact ⟨_, _, _, hfirst, rfl⟩
  · cases hbars _ hk with
    | alone _ hnone => exact hnone
  · have hshown := (Term.listHolds_loneBar (Formula.ofInput input) h 0 hk).mem_subtreesOfList
    obtain ⟨root, hroot, hnode⟩ := Node.mem_subtreesOfList.1 hshown
    have hstyle : Node.loneBar ∈
        Node.subtrees ⟨.mstyle, settings.styleAttributes, Formula.nodes (Formula.ofInput input), none⟩ :=
      Node.mem_subtrees_of_child hroot hnode
    exact Node.mem_subtrees_of_child List.mem_cons_self hstyle

/-- The first bar stands alone, and the other two make up a group in the brackets. -/
theorem bars_of_notices_eq_nil_alone :
    notices "|(|x|)" = [] ∧
      Formula.barUses (Formula.ofInput "|(|x|)") = [(0, none), (2, some 4)] ∧
      Node.loneBar ∈ (compile {} "|(|x|)").subtrees := by
  have hnotices : notices "|(|x|)" = [] := by decide +kernel
  have huses : Formula.barUses (Formula.ofInput "|(|x|)") = [(0, none), (2, some 4)] := by
    decide +kernel
  obtain ⟨-, -, -, halone⟩ := bars_of_notices_eq_nil {} "|(|x|)" hnotices
  rw [huses] at halone
  exact ⟨hnotices, huses, (halone 0 List.mem_cons_self).2⟩

end FormulaMarkup
