import FormulaMarkup.Converter
import FormulaMarkup.Proofs.Grammar.Reader
import FormulaMarkup.Proofs.Markup.Height

/-!
# The depth of markup is bounded

A level of the formula adds a few nodes to a path, and one for each level of scripts. The more
levels are around a chain of scripts, the fewer levels the chain has.
-/

namespace FormulaMarkup

namespace Formula

/-! ## Levels of scripts -/

namespace Slots

/-- The scripts of a base after a chain of further ones. -/
def addAll (slots : Slots) (chain : List (Marker × Node)) : Slots :=
  chain.foldl (fun slots script => slots.add script.1) slots

theorem addAll_cons (slots : Slots) (marker : Marker) (node : Node)
    (chain : List (Marker × Node)) :
    slots.addAll ((marker, node) :: chain) = (slots.add marker).addAll chain := rfl

def full (levels : Nat) : Slots := ⟨true, true, levels⟩

theorem levels_add (slots : Slots) (marker : Marker) :
    (slots.add marker).levels =
      if slots.isTaken marker = true then slots.levels + 1 else slots.levels := by
  obtain ⟨a, b, levels⟩ := slots
  cases a <;> cases b <;> cases marker <;> rfl

theorem add_levels (a b : Bool) (levels : Nat) (marker : Marker) :
    ∃ a' b' levels', add ⟨a, b, levels⟩ marker = ⟨a', b', levels'⟩ ∧
      add ⟨a, b, levels + 1⟩ marker = ⟨a', b', levels' + 1⟩ := by
  cases a <;> cases b <;> cases marker <;> exact ⟨_, _, _, rfl, rfl⟩

/-- The levels before do not matter for the further ones. -/
theorem levels_addAll (a b : Bool) (levels : Nat) (chain : List (Marker × Node)) :
    (addAll ⟨a, b, levels + 1⟩ chain).levels = (addAll ⟨a, b, levels⟩ chain).levels + 1 := by
  induction chain generalizing a b levels with
  | nil => rfl
  | cons script chain ih =>
    obtain ⟨marker, node⟩ := script
    obtain ⟨a', b', levels', hadd, hadd'⟩ := add_levels a b levels marker
    rw [addAll_cons, addAll_cons, hadd, hadd']
    exact ih a' b' levels'

/-- After a full level a chain begins the levels into which it is cut. -/
theorem levels_addAll_full (levels : Nat) (chain : List (Marker × Node)) :
    (addAll (full levels) chain).levels = levels + (ScriptLevel.ofChain chain).length := by
  fun_induction ScriptLevel.ofChain chain generalizing levels with
  | case1 => rfl
  | case2 marker a => cases marker <;> rfl
  | case3 a b chain ih =>
    have hcut : addAll (full levels) ((.sub, a) :: (.sup, b) :: chain) =
        addAll (full (levels + 1)) chain := rfl
    rw [hcut, ih, List.length_cons]
    omega
  | case4 a b chain ih =>
    have hcut : addAll (full levels) ((.sup, a) :: (.sub, b) :: chain) =
        addAll (full (levels + 1)) chain := rfl
    rw [hcut, ih, List.length_cons]
    omega
  | case5 marker a next chain hsub hsup ih =>
    obtain ⟨marker', b⟩ := next
    have hcut : addAll (full levels) ((marker, a) :: (marker', b) :: chain) =
        addAll (full (levels + 1)) ((marker', b) :: chain) := by
      -- Unlike markers are on one level, and that is not this case.
      cases marker <;> cases marker'
      · rfl
      · exact absurd rfl (hsub b rfl)
      · exact absurd rfl (hsup b rfl)
      · rfl
    rw [hcut, ih, List.length_cons]
    omega

/-- A chain is cut into one level more than it begins after the first. -/
theorem length_ofChain (script : Marker × Node) (chain : List (Marker × Node)) :
    (ScriptLevel.ofChain (script :: chain)).length =
      (addAll empty (script :: chain)).levels + 1 := by
  have hfull := levels_addAll_full 0 (script :: chain)
  obtain ⟨marker, node⟩ := script
  have hshift : (addAll (full 0) ((marker, node) :: chain)).levels =
      (addAll empty ((marker, node) :: chain)).levels + 1 := by
    cases marker
    · exact levels_addAll true false 0 chain
    · exact levels_addAll false true 0 chain
  omega

end Slots

theorem ReadsScripts.levels_le {room inBar slots s scripts left}
    (h : ReadsScripts room inBar slots s scripts left) :
    (slots.addAll scripts.chain).levels + 1 ≤ max room (slots.levels + 1) := by
  induction hchain : scripts.chain generalizing slots s scripts with
  | nil => exact Nat.le_max_right _ _
  | cons script chain ih =>
    cases h with
    | complete | noOperand | limit => cases hchain
    | cons marker _ free _ rest =>
      rw [Scripts.chain] at hchain
      obtain ⟨rfl, hmore⟩ := List.cons.inj hchain
      have hrest := ih rest hmore
      have hadd := slots.levels_add marker
      rw [Slots.addAll_cons]
      -- Only a script whose place is taken begins a level, and then the reader checks the limit.
      cases htaken : slots.isTaken marker with
      | false => simpa [hadd, htaken] using hrest
      | true =>
        have hroom : ¬ room ≤ slots.levels + 1 := by simpa [htaken] using free
        simp only [hadd, htaken, if_true] at hrest
        omega

/-- A chain of scripts has at most as many levels as may open below. -/
theorem ReadsScripts.length_levels_le {room inBar s scripts left}
    (h : ReadsScripts room inBar .empty s scripts left) :
    (ScriptLevel.ofChain scripts.chain).length ≤ max room 1 := by
  have hlevels := h.levels_le
  cases hchain : scripts.chain with
  | nil => exact Nat.zero_le _
  | cons script chain =>
    rw [hchain] at hlevels
    rw [Slots.length_ofChain]
    exact hlevels

end Formula

/-! ## Pieces of markup -/

section

variable {word : Word} {n m : Nat}

theorem Word.callNode_height : word.callNode.height = 1 := by
  unfold callNode
  split <;> rfl

theorem Word.limitFragment_height_le : word.limitFragment.height ≤ 2 := by
  unfold limitFragment
  split
  · exact Fragment.group_height_le (Nat.le_refl 1) nofun
  · exact Nat.le_refl 2
  · rw [Fragment.height, Fragment.single, Fragment.nodes, Node.singleOrRow, callNode_height]
    decide

theorem Word.unaryNode_height_le {kind : UnaryKind} {argument : Node} (hpos : 1 ≤ n)
    (h : argument.height ≤ n) : (word.unaryNode kind argument).height ≤ n + 1 := by
  cases kind with
  | fenced left right =>
    exact Node.height_le_iff.2 (by simp [unaryNode, Node.row, Node.container, h, hpos])
  | variant font =>
    rw [unaryNode, Node.height_setAttr]
    exact Node.height_le_iff.2 (List.forall_mem_singleton.2 h)
  | _ => exact Node.height_le_iff.2 (by simp [unaryNode, Node.container, h, hpos])

theorem Word.binaryNode_height_le {order : ArgOrder} {first second : Node}
    (hfirst : first.height ≤ n) (hsecond : second.height ≤ n) :
    (word.binaryNode order first second).height ≤ n + 1 := by
  cases order with
  | preserve => exact Node.pair_height_le _ hfirst hsecond
  | swap => exact Node.pair_height_le _ hsecond hfirst

theorem Fragment.ofGroup_height_le {opening : Word} {role : Role} {closing : Option (WordOf role)}
    {content : List Fragment} {bars : Bool} (h : ∀ fragment ∈ content, fragment.height ≤ n + 2)
    (hrows : ∀ row : TableRow, row.group ∈ content → row.group.height ≤ n) :
    (ofGroup opening closing content bars).height ≤ n + 3 := by
  cases closing with
  | none => exact group_height_le (Nat.le_add_left 1 _) h
  | some word => exact group_height_le (Nat.le_add_left 1 _) (Table.resolve_height_le h hrows)

theorem Fragment.withScripts_height_le (limits : Bool) {base : Fragment}
    {chain : List (Marker × Node)} (hbase : base.height ≤ n)
    (hchain : ∀ script ∈ chain, script.2.height ≤ n)
    (hlevels : (ScriptLevel.ofChain chain).length ≤ m) :
    (withScripts limits base chain).height ≤ n + m := by
  cases chain with
  | nil => exact Nat.le_add_right_of_le hbase
  | cons script chain =>
    refine Nat.le_trans (ScriptLevel.attachAll_height_le limits hbase fun level hlevel node hnode =>
      ?_) (Nat.add_le_add_left hlevels n)
    have hmem := List.mem_flatMap.2 ⟨level, hlevel, hnode⟩
    rw [ScriptLevel.flatMap_nodes_ofChain] at hmem
    obtain ⟨entry, hentry, rfl⟩ := List.mem_map.1 hmem
    exact hchain entry ((ScriptLevel.arrange_perm _).subset hentry)

theorem Fragment.le_argument_withScripts (limits : Bool) (base : Fragment)
    {chain : List (Marker × Node)} (h : chain ≠ []) :
    base.height + (ScriptLevel.ofChain chain).length ≤
      (withScripts limits base chain).argument.height := by
  cases chain with
  | nil => exact absurd rfl h
  | cons script chain => exact ScriptLevel.le_attachAll_height limits base.single _

theorem Fragment.node_height (node : Node) : (Fragment.node node).height = node.height := rfl

end

/-! ## Formulas -/

namespace Formula

/-- How high an operand is at most if `room` more levels may open in it. -/
def maxHeight : (room : Nat) → Nat
  | 0 => 2
  | room + 1 => maxHeight room + max room 1 + 2

theorem two_le_maxHeight (room : Nat) : 2 ≤ maxHeight room := by
  cases room with
  | zero => exact Nat.le_refl 2
  | succ room =>
    rw [maxHeight]
    omega

theorem name_height_le (word : Word) (room : Nat) :
    (Fragment.node (.leaf word.symbol.element word.symbol.output)).height ≤ maxHeight room :=
  Nat.le_trans (Nat.le_succ 1) (two_le_maxHeight room)

/-- The fragment is as high as a term may be, and no higher than an operand if it is a group that
can be a row of a table. Such a group has no scripts. -/
structure Fits (room : Nat) (fragment : Fragment) : Prop where
  height_le : fragment.height ≤ maxHeight room + max room 1 + 1
  row_height_le : ∀ row : TableRow, fragment = row.group → fragment.height ≤ maxHeight room

/-- What has scripts is no group any more. -/
theorem fits_withScripts {room : Nat} (limits : Bool) {base : Fragment}
    {chain : List (Marker × Node)} (hbase : base.height ≤ maxHeight room)
    (hchain : ∀ script ∈ chain, script.2.height ≤ maxHeight room)
    (hlevels : (ScriptLevel.ofChain chain).length ≤ max room 1) :
    Fits room (Fragment.withScripts limits base chain) := by
  constructor
  · exact Nat.le_succ_of_le (Fragment.withScripts_height_le limits hbase hchain hlevels)
  · intro row hrow
    cases chain with
    | nil => exact hbase
    | cons script chain => cases hrow

theorem fits_fraction {room : Nat} {a b : Node} (ha : a.height ≤ maxHeight room + max room 1)
    (hb : b.height ≤ maxHeight room + max room 1) :
    Fits room (.node (.container .mfrac [a, b])) := by
  constructor
  · exact Node.pair_height_le .mfrac ha hb
  · intro row hrow
    cases hrow

theorem height_group_le {room : Nat} {opening : Word} {role : Role}
    {closing : Option (WordOf role)} {content : List Fragment} {bars : Bool}
    (h : ∀ fragment ∈ content, Fits room fragment) :
    (Fragment.ofGroup opening closing content bars).height ≤ maxHeight (room + 1) := by
  have hcontent : ∀ fragment ∈ content,
      fragment.height ≤ maxHeight room + (max room 1 - 1) + 2 := by
    intro fragment hfragment
    have hle := (h fragment hfragment).height_le
    omega
  have hrows : ∀ row : TableRow, row.group ∈ content →
      row.group.height ≤ maxHeight room + (max room 1 - 1) :=
    fun row hrow => Nat.le_add_right_of_le ((h _ hrow).row_height_le row rfl)
  refine Nat.le_trans (Fragment.ofGroup_height_le hcontent hrows) ?_
  rw [maxHeight]
  omega

theorem height_call_le {room : Nat} {node : Node} (h : node.height ≤ maxHeight room + 1) :
    (Fragment.node node).height ≤ maxHeight (room + 1) := by
  rw [Fragment.node_height, maxHeight]
  omega

theorem argument_height_le {fragment : Fragment} {n : Nat} (h : fragment.height ≤ n) :
    fragment.argument.height ≤ n :=
  Nat.le_trans fragment.argument_height_le h

mutual

theorem ReadsOperand.height_le {room inBar s operand left} :
    ReadsOperand room inBar s operand left → operand.fragment.height ≤ maxHeight room
  | .number n => by
    refine Nat.le_trans ?_ (two_le_maxHeight room)
    rw [Operand.fragment]
    split
    · exact Nat.le_refl 2
    · exact Nat.le_succ 1
  | .text body | .character c | .leaf word role | .strayClosing word role =>
    Nat.le_trans (Nat.le_succ 1) (two_le_maxHeight room)
  | .keyword word role | .loneBar word role _ | .verbatim word role body => two_le_maxHeight _
  | .noArgument word role _ => by
    rw [Operand.fragment, Fragment.node_height, Word.callNode_height]
    exact Nat.le_trans (Nat.le_succ 1) (two_le_maxHeight _)
  | .beyondLimit word role => Word.limitFragment_height_le
  | .group word role content close | .bars word role paired content close =>
    height_group_le content.fits
  | .function word role first more second => by
    have hhead := Fragment.withScripts_height_le false (name_height_le word _) first.height_le
      first.length_levels_le
    have hrow := Node.pair_height_le .mrow hhead (Nat.le_add_right_of_le second.height_le)
    refine Nat.le_trans hrow ?_
    rw [maxHeight]
    omega
  | .functionAlone word role first _ => by
    have hhead := Fragment.withScripts_height_le false (name_height_le word _) first.height_le
      first.length_levels_le
    rw [maxHeight]
    exact Nat.le_add_right_of_le hhead
  | .unary word kind role more _ first =>
    height_call_le (Word.unaryNode_height_le (Nat.le_of_succ_le (two_le_maxHeight _))
      (argument_height_le first.height_le))
  | .noSecond word order role more first _ =>
    height_call_le (Word.binaryNode_height_le (argument_height_le first.height_le)
      (Nat.le_of_succ_le (two_le_maxHeight _)))
  | .binary word order role more first more' second =>
    height_call_le (Word.binaryNode_height_le (argument_height_le first.height_le)
      (argument_height_le second.height_le))

theorem ReadsScripts.height_le {room inBar slots s scripts left} :
    ReadsScripts room inBar slots s scripts left →
      ∀ script ∈ scripts.chain, script.2.height ≤ maxHeight room
  | .complete _ | .noOperand _ _ | .limit _ _ _ => nofun
  | .cons _ _ _ first rest =>
    List.forall_mem_cons.2 ⟨argument_height_le first.height_le, rest.height_le⟩

theorem ReadsTerm.fits {room inBar s term left} :
    ReadsTerm room inBar s term left → Fits room term.fragment
  | .scripted first second _ | .noDenominator first second _ =>
    fits_withScripts _ first.height_le second.height_le second.length_levels_le
  | .fraction first second _ third fourth =>
    fits_fraction
      (argument_height_le (Fragment.withScripts_height_le _ first.height_le second.height_le
        second.length_levels_le))
      (argument_height_le (Fragment.withScripts_height_le _ third.height_le fourth.height_le
        fourth.length_levels_le))

theorem ReadsBody.fits {room inBar inGroup s terms left} :
    ReadsBody room inBar inGroup s terms left →
      ∀ fragment ∈ Term.fragments terms, Fits room fragment
  | .nil _ => nofun
  | .cons _ first rest => List.forall_mem_cons.2 ⟨first.fits, rest.fits⟩

end

theorem ReadsBody.height_le {room inBar inGroup s terms left}
    (h : ReadsBody room inBar inGroup s terms left) :
    ∀ fragment ∈ Term.fragments terms, fragment.height ≤ maxHeight room + max room 1 + 1 :=
  fun fragment hfragment => (h.fits fragment hfragment).height_le

end Formula

theorem compile_height_le (settings : Settings) (input : String) :
    (compile settings input).height ≤
      Formula.maxHeight Formula.maxDepth + max Formula.maxDepth 1 + 3 := by
  have hnodes := Fragment.nodesOfList_height_le (Formula.parse_reads (lexemes input)).height_le
  have hstyle : Node.height ⟨.mstyle, settings.styleAttributes,
      Formula.nodes (Formula.ofInput input), none⟩ ≤ _ := Node.height_le_iff.2 hnodes
  exact Node.height_le_iff.2 (List.forall_mem_singleton.2 hstyle)

theorem le_compile_height (settings : Settings) {input : String} {node : Node}
    (h : node ∈ Formula.nodes (Formula.ofInput input)) :
    node.height + 2 ≤ (compile settings input).height := by
  have hstyle : node.height < Node.height ⟨.mstyle, settings.styleAttributes,
      Formula.nodes (Formula.ofInput input), none⟩ := Node.height_lt_of_mem h
  have hmath : Node.height ⟨.mstyle, settings.styleAttributes,
      Formula.nodes (Formula.ofInput input), none⟩ < (compile settings input).height :=
    Node.height_lt_of_mem List.mem_cons_self
  omega

/-- However the constructs are nested, the depth does not depend on the input. -/
theorem length_lt_of_descends {settings : Settings} {input : String} {path : List Node}
    (h : (compile settings input).Descends path) : path.length < 10000 := by
  have hmath := compile_height_le settings input
  have hbound : Formula.maxHeight Formula.maxDepth + max Formula.maxDepth 1 + 3 < 10000 := by
    decide +kernel
  have hlength := h.length_le
  omega

theorem length_lt_of_descends_sqrt :
    let x := Node.leaf .mi "x"
    let sqrt := Node.container .msqrt [x]
    let style := Node.container .mstyle [sqrt]
    let path := [compile .default "sqrt x", style, sqrt, x]
    (compile .default "sqrt x").Descends path ∧ path.length < 10000 := by
  intro x sqrt style path
  have hchildren : (compile .default "sqrt x").children = [style] := by decide +kernel
  have hpath : (compile .default "sqrt x").Descends path := by
    refine .child (hchildren ▸ List.mem_singleton_self style) ?_
    refine .child (List.mem_singleton_self sqrt) ?_
    exact .child (List.mem_singleton_self x) (.stop rfl)
  exact ⟨hpath, length_lt_of_descends hpath⟩

end FormulaMarkup
