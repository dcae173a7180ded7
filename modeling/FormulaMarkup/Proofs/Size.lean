import FormulaMarkup.Proofs.Grammar.Surroundings
import FormulaMarkup.Proofs.Markup.Size
import FormulaMarkup.Proofs.Token.Spacing
import Mathlib.Order.Bounds.Defs

/-!
# Markup is as long as its input

Each token pays for four nodes: what a keyword takes, and more than what any other construct adds to
its parts. So the markup of a formula grows with its tokens, however they are nested.
-/

namespace FormulaMarkup

open Node ScriptLevel

/-! ## Words -/

namespace Word

variable (word : Word)

theorem size_callNode : word.callNode.size = 1 := by
  unfold callNode
  split <;> rfl

theorem limitFragment_weight_le : word.limitFragment.weight ≤ 2 := by
  unfold limitFragment
  split
  · exact Nat.le_refl 2
  · exact Nat.le_refl 2
  · exact Nat.le_trans (Nat.le_of_eq word.size_callNode) (Nat.le_succ 1)

theorem unaryNode_size_le (kind : UnaryKind) (argument : Node) :
    (word.unaryNode kind argument).size ≤ argument.size + 3 := by
  cases kind with
  | fenced left right =>
    simp only [unaryNode, size_row, sizeOfList_cons, sizeOfList_nil, size_leaf]
    omega
  | _ => simp [unaryNode]

theorem size_binaryNode (order : ArgOrder) (first second : Node) :
    (word.binaryNode order first second).size = first.size + second.size + 1 := by
  cases order with
  | preserve => simp [binaryNode]
  | swap => simp [binaryNode, Nat.add_comm]

end Word

/-- A table in place of the content makes a group no heavier. -/
theorem Fragment.ofGroup_weight_le (opening : Word) {role : Role} (closing : Option (WordOf role))
    (content : List Fragment) (bars : Bool) :
    (ofGroup opening closing content bars).weight ≤
      weightOfList content + (Word.closingYield closing).length + 2 := by
  cases closing with
  | none => exact Nat.le_refl _
  | some word =>
    have hresolve := Table.resolve_weight_le content
    exact Nat.add_le_add_right (Nat.add_le_add_right hresolve 1) 2

section

variable {chain : List (Marker × Node)} {n m : Nat} (limits : Bool)

/-- The markers pay for the nodes above the scripts. -/
theorem Fragment.withScripts_weight_le_add {base : Fragment} (hbase : base.weight ≤ 4 * n)
    (hchain : sizeOfChain chain ≤ 4 * m) :
    (withScripts limits base chain).weight ≤ 4 * (n + m) := by
  have hscripts := withScripts_weight_le limits base chain
  omega

theorem Fragment.argument_withScripts_size_le {base : Fragment} (hbase : base.weight ≤ 4 * n)
    (hchain : sizeOfChain chain ≤ 4 * m) :
    (withScripts limits base chain).argument.size ≤ 4 * (n + m) :=
  Nat.le_trans (argument_size_le _) (withScripts_weight_le_add limits hbase hchain)

/-- A named function is a single node in front of its scripts. -/
theorem Word.name_weight_le (name : Word) (hchain : sizeOfChain chain ≤ 4 * m) :
    (Fragment.withScripts limits (.node (.leaf name.symbol.element name.symbol.output))
      chain).weight ≤ 4 * m + 1 := by
  have hscripts := Fragment.withScripts_weight_le limits
    (.node (.leaf name.symbol.element name.symbol.output)) chain
  rw [Fragment.weight, size_leaf] at hscripts
  omega

end

/-! ## Formulas -/

mutual

theorem Operand.weight_le : (operand : Operand) →
    operand.fragment.weight ≤ 4 * operand.yield.length
  | .number n => by
    rw [Operand.fragment]
    split
    · exact Nat.le_succ 3
    · exact Nat.le_add_left 1 3
  | .text body | .character c | .leaf word role | .strayClosing word role => Nat.le_add_left 1 3
  | .keyword word role => Nat.le_refl 4
  | .loneBar word role => Nat.le_add_left 2 2
  | .verbatim word role body => Nat.le_add_left 2 6
  | .noArgument word role => Nat.le_trans (Nat.le_of_eq word.size_callNode) (Nat.le_add_left 1 3)
  | .beyondLimit word role => Nat.le_trans word.limitFragment_weight_le (Nat.le_add_left 2 2)
  | .group opening role body closing => by
    have hbody := Term.weightOfList_le body
    have hgroup := Fragment.ofGroup_weight_le opening closing (Term.fragments body) false
    rw [Operand.fragment, Operand.yield, List.length_cons, List.length_append]
    omega
  | .bars opening role body closing => by
    have hbody := Term.weightOfList_le body
    have hbars := Fragment.ofGroup_weight_le opening closing (Term.fragments body) true
    rw [Operand.fragment, Operand.yield, List.length_cons, List.length_append]
    omega
  | .function name role scripts argument => by
    have hname := name.name_weight_le false (Scripts.size_le scripts)
    have hhead := Nat.le_trans (Fragment.single_size_le _) hname
    have hplace := argument.fragment.single_size_le
    have hargument := Operand.weight_le argument
    rw [Operand.fragment, Fragment.weight, size_row, sizeOfList_cons, sizeOfList_cons,
      sizeOfList_nil, Operand.yield, List.length_cons, List.length_append]
    omega
  | .functionAlone name role scripts => by
    have hname := name.name_weight_le false (Scripts.size_le scripts)
    rw [Operand.fragment, Operand.yield, List.length_cons]
    omega
  | .unary word kind role argument => by
    have hnode := word.unaryNode_size_le kind argument.fragment.argument
    have hplace := argument.fragment.argument_size_le
    have hargument := Operand.weight_le argument
    rw [Operand.fragment, Fragment.weight, Operand.yield, List.length_cons]
    omega
  | .noSecond word order role first => by
    have hplace := first.fragment.argument_size_le
    have hfirst := Operand.weight_le first
    rw [Operand.fragment, Fragment.weight, word.size_binaryNode, size_row, sizeOfList_nil,
      Operand.yield, List.length_cons]
    omega
  | .binary word order role first second => by
    have hplace := first.fragment.argument_size_le
    have hplace' := second.fragment.argument_size_le
    have hfirst := Operand.weight_le first
    have hsecond := Operand.weight_le second
    rw [Operand.fragment, Fragment.weight, word.size_binaryNode, Operand.yield, List.length_cons,
      List.length_append]
    omega

theorem Scripts.size_le : (scripts : Scripts) →
    sizeOfChain scripts.chain ≤ 4 * scripts.yield.length
  | .done reason => Nat.le_refl 0
  | .cons marker operand more => by
    have hplace := operand.fragment.argument_size_le
    have hoperand := Operand.weight_le operand
    have hmore := Scripts.size_le more
    rw [Scripts.chain, sizeOfChain_cons, Scripts.yield, List.length_cons, List.length_append]
    omega

theorem Term.weight_le : (term : Term) → term.fragment.weight ≤ 4 * term.yield.length
  | .scripted base scripts | .noDenominator base scripts => by
    rw [Term.fragment, Term.yield, List.length_append]
    exact Fragment.withScripts_weight_le_add _ (Operand.weight_le base) (Scripts.size_le scripts)
  | .fraction base scripts base' scripts' => by
    have hnumerator := Fragment.argument_withScripts_size_le base.takesLimits
      (Operand.weight_le base) (Scripts.size_le scripts)
    have hdenominator := Fragment.argument_withScripts_size_le base'.takesLimits
      (Operand.weight_le base') (Scripts.size_le scripts')
    rw [Term.fragment, Fragment.weight, size_container, sizeOfList_cons, sizeOfList_cons,
      sizeOfList_nil, Term.yield, List.length_append, List.length_append, List.length_cons,
      List.length_append]
    omega

theorem Term.weightOfList_le : (terms : List Term) →
    Fragment.weightOfList (Term.fragments terms) ≤ 4 * (Term.yieldOfList terms).length
  | [] => Nat.le_refl 0
  | term :: terms => by
    have hterm := Term.weight_le term
    have hterms := Term.weightOfList_le terms
    rw [Term.fragments, Fragment.weightOfList, Term.yieldOfList, List.length_append]
    omega

end

/-! ## The whole markup -/

theorem Settings.size_assemble (settings : Settings) (nodes : List Node) :
    (settings.assemble nodes).size = sizeOfList nodes + 2 := by
  rw [assemble, size_eq, sizeOfList_cons, sizeOfList_nil, size_eq]

theorem compile_size_le (settings : Settings) (input : String) :
    (compile settings input).size ≤ 4 * (tokenize input).length + 2 := by
  have hnodes := Fragment.nodesOfList_size_le (Term.fragments (Formula.ofInput input))
  have hweight := Term.weightOfList_le (Formula.ofInput input)
  rw [Formula.ofInput, Formula.yieldOfList_parse, lexemes, List.length_map] at hweight
  rw [compile, Settings.size_assemble]
  exact Nat.add_le_add_right (Nat.le_trans hnodes hweight) 2

/-! ## Keywords in a row -/

namespace Formula

variable {word : Word}

/-- A keyword takes neither scripts nor a denominator from what is no mark. -/
theorem parse_keyword (role : word.role = .wordOperator) {s : List Lexeme} (hs : Separate s) :
    parse (.symbol word :: s) = .scripted (.keyword word role) (.done .complete) :: parse s :=
  parse_eq_iff.2 (.cons rfl (.scripted (.keyword word role) (.complete fun x hx => (hs x hx).1)
    fun hslash => (hs _ hslash).2 rfl) (parse_reads s))

theorem nodes_keyword (role : word.role = .wordOperator) (terms : List Term) :
    nodes (.scripted (.keyword word role) (.done .complete) :: terms) =
      Fragment.keywordRow word.symbol :: nodes terms := rfl

/-- Keywords need all that is paid for them. -/
theorem size_keywords (role : word.role = .wordOperator) (n : Nat) :
    sizeOfList (nodes (parse (List.replicate n (.symbol word)))) = 4 * n := by
  induction n with
  | zero =>
    rw [List.replicate_zero, parse_eq_iff.2 (.nil rfl)]
    rfl
  | succ n ih =>
    have hseparate : Separate (List.replicate n (.symbol word)) := by
      cases n with
      | zero => exact nofun
      | succ n => exact separate_of_role (by simp [role]) _
    have hrow : (Fragment.keywordRow word.symbol).size = 4 := rfl
    rw [List.replicate_succ, parse_keyword role hseparate, nodes_keyword, sizeOfList_cons, hrow, ih,
      Nat.mul_succ, Nat.add_comm]

theorem exists_size_eq (n : Nat) : ∃ input, (tokenize input).length = n ∧
    ∀ settings, (compile settings input).size = 4 * n + 2 := by
  let word : Word := ⟨"if", .wordOperator "if", by decide⟩
  have hwords : ∀ x ∈ List.replicate n (Lexeme.symbol word), x.IsPlainWord := by
    intro x hx
    rw [List.eq_of_mem_replicate hx]
    exact ⟨word, rfl, by decide⟩
  obtain ⟨input, hinput⟩ := exists_lexemes_eq hwords
  have hlength : (tokenize input).length = n := by
    rw [← List.length_map, ← lexemes, hinput, List.length_replicate]
  refine ⟨input, hlength, fun settings => ?_⟩
  rw [compile, Settings.size_assemble, ofInput, hinput, size_keywords rfl]

end Formula

/-- The markup of `n` tokens has at most `4 * n + 2` nodes, and some has as many, whatever the
settings. -/
theorem isGreatest_size (settings : Settings) (n : Nat) :
    IsGreatest {size | ∃ input, (tokenize input).length = n ∧ (compile settings input).size = size}
      (4 * n + 2) := by
  constructor
  · obtain ⟨input, hlength, hsize⟩ := Formula.exists_size_eq n
    exact ⟨input, hlength, hsize settings⟩
  · rintro size ⟨input, rfl, rfl⟩
    exact compile_size_le settings input

end FormulaMarkup
