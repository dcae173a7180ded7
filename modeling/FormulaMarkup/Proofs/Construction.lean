import FormulaMarkup.Converter
import FormulaMarkup.Proofs.Markup.Built
import FormulaMarkup.Proofs.Symbol.Table

/-!
# How the markup is built

The type of formulas leaves no faulty one, so it is enough to follow the tree of a formula: each of
its parts becomes a fragment that is built from leaves, layouts and tables wherever it is placed.
-/

namespace FormulaMarkup

/-! ## Fragments -/

namespace Fragment

mutual

/-- The fragment is built of nodes wherever it is placed. -/
def Sound : Fragment → Prop
  | .node n => n.Built
  | .group opening closing content _ =>
    opening.element = .mo ∧ (∀ symbol ∈ closing, symbol.element = .mo) ∧ SoundList content
  | .negative digits => digits ≠ ""
  | .keyword symbol => symbol.output ≠ ""

def SoundList : List Fragment → Prop
  | [] => True
  | fragment :: fragments => fragment.Sound ∧ SoundList fragments

end

theorem soundList_iff {fragments : List Fragment} :
    SoundList fragments ↔ ∀ fragment ∈ fragments, fragment.Sound := by
  induction fragments with
  | nil => simp [SoundList]
  | cons fragment fragments ih => simp [SoundList, ih]

theorem operator_built {text : String} (h : text ≠ "") : (Node.leaf .mo text).Built :=
  Node.Built.leaf (.inl ⟨rfl, h⟩)

theorem bracketNodes_built {symbol : Symbol} (h : symbol.element = .mo) :
    ∀ node ∈ bracketNodes symbol, node.Built := by
  unfold bracketNodes
  split
  · simp
  · next houtput =>
    rw [h]
    simpa using operator_built houtput

theorem bracketed_built {opening : Symbol} {closing : Option Symbol} {content : List Node}
    (hopening : opening.element = .mo) (hclosing : ∀ symbol ∈ closing, symbol.element = .mo)
    (hcontent : ∀ node ∈ content, node.Built) : (bracketed opening closing content).Built := by
  refine Node.Built.row fun node hnode => ?_
  rcases List.mem_append.1 hnode with h | h
  · exact bracketNodes_built hopening node h
  · rcases List.mem_append.1 h with h | h
    · exact hcontent node h
    · cases closing with
      | none => cases h
      | some symbol => exact bracketNodes_built (hclosing symbol rfl) node h

theorem keywordRow_built {symbol : Symbol} (h : symbol.output ≠ "") :
    (keywordRow symbol).Built := by
  have hspace : keywordSpace.Built := .layout rfl nofun nofun nofun
  refine Node.Built.row fun node hnode => ?_
  simp only [List.mem_cons, List.not_mem_nil, or_false] at hnode
  rcases hnode with rfl | rfl | rfl
  · exact hspace
  · exact operator_built h
  · exact hspace

mutual

theorem Sound.nodes : (fragment : Fragment) → fragment.Sound → ∀ node ∈ fragment.nodes, node.Built
  | .node n, h => by
    rw [Sound] at h
    simpa [Fragment.nodes] using h
  | .group opening closing content bars, h => by
    obtain ⟨hopening, hclosing, hcontent⟩ := h
    have hnode := bracketed_built hopening hclosing (SoundList.nodes content hcontent)
    simpa [Fragment.nodes] using hnode
  | .negative digits, h => by
    simp only [Fragment.nodes, negativeNodes, List.mem_cons, List.not_mem_nil, or_false]
    rintro node (rfl | rfl)
    · exact operator_built (by decide)
    · exact Node.Built.leaf (.inl ⟨rfl, h⟩)
  | .keyword symbol, h => by simpa [Fragment.nodes] using keywordRow_built h

theorem SoundList.nodes : (fragments : List Fragment) → SoundList fragments →
    ∀ node ∈ nodesOfList fragments, node.Built
  | [], _ => by simp [nodesOfList]
  | fragment :: fragments, h => by
    intro node hnode
    rcases List.mem_append.1 hnode with hnode | hnode
    · exact Sound.nodes fragment h.1 node hnode
    · exact SoundList.nodes fragments h.2 node hnode

end

theorem Sound.single {fragment : Fragment} (h : fragment.Sound) : fragment.single.Built :=
  Node.Built.singleOrRow (Sound.nodes fragment h)

theorem Sound.argument {fragment : Fragment} (h : fragment.Sound) : fragment.argument.Built := by
  unfold Fragment.argument
  split
  · exact Node.Built.singleOrRow (SoundList.nodes _ h.2.2)
  · exact h.single

end Fragment

/-! ## Tables -/

namespace TableRow

theorem cellsOf_ne_nil (content : List Fragment) : cellsOf content ≠ [] := by
  cases content with
  | nil => simp [cellsOf]
  | cons fragment fragments =>
    simp only [cellsOf]
    split
    · simp
    · split <;> simp

theorem mem_of_mem_cellsOf {content cell : List Fragment} {fragment : Fragment}
    (hcell : cell ∈ cellsOf content) (h : fragment ∈ cell) : fragment ∈ content := by
  induction content generalizing cell with
  | nil =>
    rw [cellsOf, List.mem_singleton] at hcell
    subst hcell
    cases h
  | cons first content ih =>
    simp only [cellsOf] at hcell
    split at hcell
    · rcases List.mem_cons.1 hcell with rfl | hcell
      · cases h
      · exact List.mem_cons_of_mem _ (ih hcell h)
    · split at hcell
      · next hnil => exact absurd hnil (cellsOf_ne_nil content)
      · next cell' cells hcells =>
        rw [hcells] at ih
        rcases List.mem_cons.1 hcell with rfl | hcell
        · rcases List.mem_cons.1 h with rfl | h
          · exact List.mem_cons_self
          · exact List.mem_cons_of_mem _ (ih List.mem_cons_self h)
        · exact List.mem_cons_of_mem _ (ih (List.mem_cons_of_mem _ hcell) h)

theorem cells_built {row : TableRow} (h : Fragment.SoundList row.content) :
    ∀ cell ∈ row.cells, ∀ node ∈ Fragment.nodesOfList cell, node.Built := by
  intro cell hcell
  refine Fragment.SoundList.nodes cell (Fragment.soundList_iff.2 fun fragment hf => ?_)
  exact Fragment.soundList_iff.1 h fragment (mem_of_mem_cellsOf hcell hf)

def group (row : TableRow) : Fragment := .group row.opening (some row.closing) row.content false

theorem eq_group_of_ofFragment? {fragment : Fragment} {row : TableRow}
    (h : ofFragment? fragment = some row) : fragment = row.group := by
  unfold ofFragment? at h
  split at h
  · cases h
    rfl
  · cases h

end TableRow

namespace Table

theorem group_mem_of_rows? {content : List Fragment} {rows : List TableRow}
    (h : rows? content = some rows) : ∀ row ∈ rows, row.group ∈ content := by
  fun_induction rows? content generalizing rows with
  | case1 => cases h
  | case2 fragment =>
    obtain ⟨row, hrow, rfl⟩ := Option.map_eq_some_iff.1 h
    simp [TableRow.eq_group_of_ofFragment? hrow]
  | case3 fragment comma fragments _ row more hmore hrow ih =>
    cases h
    intro row' hmem
    rcases List.mem_cons.1 hmem with rfl | hmem
    · simp [TableRow.eq_group_of_ofFragment? hrow]
    · exact List.mem_cons_of_mem _ (List.mem_cons_of_mem _ (ih hmore row' hmem))
  | case4 => cases h
  | case5 => cases h

theorem soundList_of_rows? {content : List Fragment} {rows : List TableRow}
    (h : Fragment.SoundList content) (hrows : rows? content = some rows) :
    ∀ row ∈ rows, Fragment.SoundList row.content := by
  intro row hrow
  have hgroup : row.group.Sound :=
    Fragment.soundList_iff.1 h row.group (group_mem_of_rows? hrows row hrow)
  exact hgroup.2.2

/-- Rows that fit below the first are as wide as the first. -/
theorem length_cells_of_fits {first : TableRow} {rows : List TableRow}
    (h : rows.all first.fits = true) :
    ∀ row ∈ first :: rows, row.cells.length = first.cells.length := by
  intro row hmem
  rcases List.mem_cons.1 hmem with rfl | hmem
  · rfl
  · have hfits := List.all_eq_true.1 h row hmem
    simp only [TableRow.fits, Bool.and_eq_true, decide_eq_true_eq] at hfits
    exact hfits.2

theorem node_built {rows : List TableRow} {columns : Nat} (hrows : 2 ≤ rows.length)
    (hcolumns : ∀ row ∈ rows, row.cells.length = columns)
    (h : ∀ row ∈ rows, Fragment.SoundList row.content) : (node rows).Built := by
  have hpos : 1 ≤ columns := by
    obtain ⟨row, hmem⟩ := List.exists_mem_of_length_pos (Nat.lt_of_lt_of_le Nat.two_pos hrows)
    rw [← hcolumns row hmem]
    exact List.length_pos_iff.2 (TableRow.cellsOf_ne_nil _)
  have htable : ∀ attributes, Node.Built ⟨.mtable, attributes, rows.map TableRow.node, none⟩ := by
    intro attributes
    have hbuilt := @Node.Built.table attributes
      (rows.map fun row => row.cells.map Fragment.nodesOfList) columns
      (by simpa using hrows) hpos (by simpa using hcolumns)
      (by simpa using fun row hrow => TableRow.cells_built (h row hrow))
    simpa [Function.comp_def, ← TableRow.node.eq_def] using hbuilt
  unfold node
  simp only
  split
  · exact htable _
  · exact htable _

theorem ofContent?_built {content : List Fragment} {table : Node}
    (h : Fragment.SoundList content) (htable : ofContent? content = some table) :
    table.Built := by
  unfold ofContent? at htable
  split at htable
  · next first second rows hrows =>
    split at htable
    · next hfits =>
      cases htable
      exact node_built (by simp) (length_cells_of_fits hfits) (soundList_of_rows? h hrows)
    · cases htable
  · cases htable

theorem resolve_sound {content : List Fragment} (h : Fragment.SoundList content) :
    Fragment.SoundList (resolve content) := by
  unfold resolve
  split
  · next table htable => exact ⟨ofContent?_built h htable, trivial⟩
  · exact h

end Table

/-! ## Words -/

namespace Word

variable {word : Word}

theorem element_eq_mo (h : Symbol.elements word.role = [.mo]) : word.symbol.element = .mo := by
  have hmem := word.element_mem
  rw [h] at hmem
  exact List.mem_singleton.1 hmem

theorem leaf_built (role : word.role.isLeaf = true) :
    (Node.leaf word.symbol.element word.symbol.output).Built := by
  refine Node.Built.leaf (.inl ⟨?_, word.output_ne_empty ?_⟩)
  · have hmem := word.element_mem
    cases h : word.role <;> rw [h] at role hmem <;> cases role <;>
      simp only [Symbol.elements, List.mem_cons, List.not_mem_nil, or_false] at hmem
    · rcases hmem with h | h <;> rw [h] <;> rfl
    · rw [hmem]; rfl
    · rw [hmem]; rfl
  · cases h : word.role <;> rw [h] at role <;> first | rfl | cases role

theorem name_sound (role : word.role = .function) :
    (Fragment.node (.leaf word.symbol.element word.symbol.output)).Sound := by
  rw [element_eq_mo (by rw [role]; rfl)]
  exact Fragment.operator_built (word.output_ne_empty (by rw [role]; rfl))

theorem callNode_built : word.callNode.Built := by
  unfold callNode
  split
  · next role => exact Fragment.operator_built (word.output_ne_empty (by rw [role]; rfl))
  · next role => exact Fragment.operator_built (word.output_ne_empty (by rw [role]; rfl))
  · next role => exact Fragment.operator_built (word.output_ne_empty (by rw [role]; rfl))
  · exact Fragment.operator_built word.spelling_ne_empty

theorem barNode_built (role : word.role = .leftRight) : word.barNode.Built := by
  refine Node.Built.row fun node hnode => ?_
  rw [List.mem_singleton.1 hnode, element_eq_mo (by rw [role]; rfl)]
  exact Fragment.operator_built (word.output_ne_empty (by rw [role]; rfl))

theorem strayNode_built : word.strayNode.Built := by
  refine Fragment.operator_built ?_
  split
  · exact word.spelling_ne_empty
  · next h => exact h

theorem limitFragment_sound : word.limitFragment.Sound := by
  unfold limitFragment
  split
  · next role => exact ⟨element_eq_mo (by rw [role]; rfl), by simp, trivial⟩
  · next role => exact barNode_built role
  · exact callNode_built

/-- A function with its argument and what else its element demands. -/
theorem wrap_built {attributes : Attributes} {argument : Node} {more : List Node}
    (hlayout : word.symbol.element.isLayout = true)
    (harity : word.symbol.element.arity?.all (· = (argument :: more).length) = true)
    (h : ∀ child ∈ argument :: more, child.Built) :
    Node.Built ⟨word.symbol.element, attributes, argument :: more, none⟩ := by
  refine .layout hlayout (fun n hn => ?_) (fun _ => List.cons_ne_nil argument more) h
  rw [hn, Option.all_some, decide_eq_true_eq] at harity
  exact harity.symm

theorem unaryNode_built {kind : UnaryKind} {argument : Node} (role : word.role = .unary kind)
    (h : argument.Built) : (word.unaryNode kind argument).Built := by
  have hmem := word.element_mem
  have hdelimiter : ∀ text ∈ Symbol.delimiters (.unary kind), text ≠ "" :=
    fun text htext => word.delimiter_ne_empty (by rwa [role])
  have haccent : ∀ accent : UnaryKind, kind = accent →
      Symbol.mayBeInvisible (.unary accent) = false →
      ∀ child ∈ [argument, .leaf .mo word.symbol.output], child.Built := by
    rintro accent rfl hvisible
    have houtput := word.output_ne_empty (by rwa [role])
    simpa [h] using Fragment.operator_built houtput
  rw [role] at hmem
  cases kind with
  | fenced left right =>
    have hleft := Fragment.operator_built (hdelimiter left (by simp [Symbol.delimiters]))
    have hright := Fragment.operator_built (hdelimiter right (by simp [Symbol.delimiters]))
    exact Node.Built.row (by simp [h, hleft, hright])
  | accentOver =>
    have helement := List.mem_singleton.1 hmem
    exact wrap_built (by rw [helement]; rfl) (by rw [helement]; rfl) (haccent _ rfl rfl)
  | accentUnder =>
    have helement := List.mem_singleton.1 hmem
    exact wrap_built (by rw [helement]; rfl) (by rw [helement]; rfl) (haccent _ rfl rfl)
  | variant font =>
    have helement := List.mem_singleton.1 hmem
    exact wrap_built (by rw [helement]; rfl) (by rw [helement]; rfl) (by simpa using h)
  | _ =>
    have helement := List.mem_singleton.1 hmem
    exact wrap_built (by rw [helement]; rfl) (by rw [helement]; rfl) (by simpa using h)

theorem binaryNode_built {order : ArgOrder} {first second : Node}
    (role : word.role = .binary order) (hfirst : first.Built) (hsecond : second.Built) :
    (word.binaryNode order first second).Built := by
  have hmem := word.element_mem
  rw [role] at hmem
  have hlayout : word.symbol.element.isLayout = true ∧ word.symbol.element.arity? = some 2 := by
    simp only [Symbol.elements, List.mem_cons, List.not_mem_nil, or_false] at hmem
    rcases hmem with h | h | h | h <;> rw [h] <;> exact ⟨rfl, rfl⟩
  have harity : word.symbol.element.arity?.all (· = 2) = true := by rw [hlayout.2]; rfl
  cases order with
  | preserve => exact wrap_built hlayout.1 harity (by simp [hfirst, hsecond])
  | swap => exact wrap_built hlayout.1 harity (by simp [hfirst, hsecond])

end Word

/-! ## Formulas -/

theorem Fragment.ofGroup_sound {opening : Word} {role : Role} {closing : Option (WordOf role)}
    {content : List Fragment} {bars : Bool} (hopening : Symbol.elements opening.role = [.mo])
    (hclosing : Symbol.elements role = [.mo]) (h : SoundList content) :
    (ofGroup opening closing content bars).Sound := by
  cases closing with
  | none => exact ⟨Word.element_eq_mo hopening, by simp, h⟩
  | some word =>
    refine ⟨Word.element_eq_mo hopening, ?_, Table.resolve_sound h⟩
    intro symbol hsymbol
    rw [← Option.some.inj hsymbol]
    exact Word.element_eq_mo (by rw [word.2, hclosing])

theorem Fragment.withScripts_sound (limits : Bool) {base : Fragment} {chain : List (Marker × Node)}
    (hbase : base.Sound) (hchain : ∀ script ∈ chain, script.2.Built) :
    (withScripts limits base chain).Sound := by
  cases chain with
  | nil => exact hbase
  | cons script chain =>
    refine ScriptLevel.attachAll_built hbase.single fun level hlevel node hnode => ?_
    have hmem := List.mem_flatMap.2 ⟨level, hlevel, hnode⟩
    rw [ScriptLevel.flatMap_nodes_ofChain] at hmem
    obtain ⟨entry, hentry, rfl⟩ := List.mem_map.1 hmem
    exact hchain entry ((ScriptLevel.arrange_perm _).subset hentry)

mutual

theorem Operand.fragment_sound : (operand : Operand) → operand.fragment.Sound
  | .number n => by
    rw [Operand.fragment]
    split
    · exact n.nonempty
    · exact Node.Built.leaf (.inl ⟨rfl, n.nonempty⟩)
  | .text body => Node.Built.leaf (.inr rfl)
  | .character c => Node.Built.leaf (.inl ⟨rfl, by simp⟩)
  | .leaf word role => Word.leaf_built role
  | .keyword word role => word.output_ne_empty (by rw [role]; rfl)
  | .strayClosing word _ => word.strayNode_built
  | .beyondLimit word _ => word.limitFragment_sound
  | .group opening role body closing =>
    Fragment.ofGroup_sound (by rw [role]; rfl) rfl (Term.fragments_sound body)
  | .loneBar bar role => Word.barNode_built role
  | .bars opening role body closing =>
    Fragment.ofGroup_sound (by rw [role]; rfl) rfl (Term.fragments_sound body)
  | .function name role scripts argument => by
    have hhead := Fragment.withScripts_sound false (name.name_sound role)
      (Scripts.chain_built scripts)
    exact Node.Built.row (by simp [hhead.single, (Operand.fragment_sound argument).single])
  | .functionAlone name role scripts =>
    Fragment.withScripts_sound false (name.name_sound role) (Scripts.chain_built scripts)
  | .noArgument word _ => word.callNode_built
  | .verbatim word _ body => Node.Built.row (by simp [Node.Built.leaf])
  | .unary word kind role argument =>
    Word.unaryNode_built role (Operand.fragment_sound argument).argument
  | .noSecond word order role first =>
    Word.binaryNode_built role (Operand.fragment_sound first).argument (Node.Built.row (by simp))
  | .binary word order role first second =>
    Word.binaryNode_built role (Operand.fragment_sound first).argument
      (Operand.fragment_sound second).argument

theorem Scripts.chain_built : (scripts : Scripts) → ∀ script ∈ scripts.chain, script.2.Built
  | .done _ => by simp [Scripts.chain]
  | .cons marker operand more => by
    intro script hscript
    rcases List.mem_cons.1 hscript with rfl | hscript
    · exact (Operand.fragment_sound operand).argument
    · exact Scripts.chain_built more script hscript

theorem Term.fragment_sound : (term : Term) → term.fragment.Sound
  | .scripted base scripts | .noDenominator base scripts =>
    Fragment.withScripts_sound _ (Operand.fragment_sound base) (Scripts.chain_built scripts)
  | .fraction base scripts base' scripts' => by
    have hnumerator := Fragment.withScripts_sound base.takesLimits
      (Operand.fragment_sound base) (Scripts.chain_built scripts)
    have hdenominator := Fragment.withScripts_sound base'.takesLimits
      (Operand.fragment_sound base') (Scripts.chain_built scripts')
    exact .layout rfl (by simp [Element.arity?]) nofun
      (by simp [hnumerator.argument, hdenominator.argument])

theorem Term.fragments_sound : (terms : List Term) → Fragment.SoundList (Term.fragments terms)
  | [] => trivial
  | term :: terms => ⟨Term.fragment_sound term, Term.fragments_sound terms⟩

end

theorem Formula.nodes_built (formula : List Term) : ∀ node ∈ Formula.nodes formula, node.Built :=
  Fragment.SoundList.nodes _ (Term.fragments_sound formula)

end FormulaMarkup
