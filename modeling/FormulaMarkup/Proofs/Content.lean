import FormulaMarkup.Proofs.Cover
import FormulaMarkup.Proofs.Grammar.Shown
import FormulaMarkup.Proofs.Grammar.Yield
import FormulaMarkup.Proofs.Token.Run

/-!
# The markup shows what the input says

Each lexeme has leaves that the markup shows exactly once, in the order of the lexemes that the
formula gives. Brackets, commas and the marks between operands may be shown or not.
-/

namespace FormulaMarkup

/-! ## Leaves of lexemes -/

/-- The leaves that a word has in every place. -/
def Word.leaves (word : Word) : List Leaf :=
  match word.role with
  | .identifier => [(word.symbol.element, word.symbol.output)]
  | .operator => if word.spelling ∈ [",", "/", "_", "^"] then [] else [(.mo, word.symbol.output)]
  | .embellished | .wordOperator | .function | .unary .accentOver | .unary .accentUnder =>
    [(.mo, word.symbol.output)]
  | _ => []

def Lexeme.leaves : Lexeme → List Leaf
  | .number n => [(.mn, n.digits)]
  | .text body => [(.mtext, body)]
  | .character c => [(.mi, c.toString)]
  | .symbol word => word.leaves

namespace Word

variable {word : Word}

@[simp] theorem leaves_marker (marker : Marker) : marker.word.leaves = [] := by
  cases marker <;> decide

@[simp] theorem leaves_slash : Word.slash.leaves = [] := by decide

theorem leaves_of_bracket (h : word.role = .openBracket ∨ word.role = .closeBracket ∨
    word.role = .leftRight) : word.leaves = [] := by
  rcases h with h | h | h <;> simp [leaves, h]

/-- No lexeme has to be shown as a comma. -/
theorem comma_notMem_leaves : (.mo, ",") ∉ word.leaves := by
  intro h
  have houtput : word.symbol.output = "," := by
    unfold leaves at h
    split at h
    · exact (congrArg Prod.snd (List.mem_singleton.1 h)).symm
    · split at h
      · cases h
      · exact (congrArg Prod.snd (List.mem_singleton.1 h)).symm
    all_goals first
      | exact (congrArg Prod.snd (List.mem_singleton.1 h)).symm
      | cases h
  obtain rfl := eq_comma_of_output houtput
  revert h
  decide

end Word

namespace Lexeme

def leavesOfList (s : List Lexeme) : List Leaf := s.flatMap leaves

@[simp] theorem leavesOfList_nil : leavesOfList [] = [] := rfl

@[simp] theorem leavesOfList_cons (x : Lexeme) (s : List Lexeme) :
    leavesOfList (x :: s) = x.leaves ++ leavesOfList s := rfl

@[simp] theorem leavesOfList_append (s t : List Lexeme) :
    leavesOfList (s ++ t) = leavesOfList s ++ leavesOfList t := List.flatMap_append

@[simp] theorem leaves_number (n : Numeral) : (number n).leaves = [(.mn, n.digits)] := rfl

@[simp] theorem leaves_text (body : String) : (text body).leaves = [(.mtext, body)] := rfl

@[simp] theorem leaves_character (c : Char) : (character c).leaves = [(.mi, c.toString)] := rfl

@[simp] theorem leaves_symbol (word : Word) : (symbol word).leaves = word.leaves := rfl

theorem comma_notMem_leavesOfList (s : List Lexeme) : (.mo, ",") ∉ leavesOfList s := by
  intro h
  obtain ⟨x, -, hx⟩ := List.mem_flatMap.1 h
  cases x with
  | symbol word => exact Word.comma_notMem_leaves hx
  | _ => simp at hx

end Lexeme

/-! ## Words -/

namespace Word

variable {word : Word}

theorem leaf_covers (role : word.role.isLeaf = true) :
    Covers word.leaves [(word.symbol.element, word.symbol.output)] := by
  unfold leaves
  cases h : word.role with
  | identifier => exact .refl _
  | operator =>
    rw [element_eq_mo (by rw [h]; rfl)]
    simp only
    split
    · exact .operator _
    · exact .refl _
  | embellished => rw [element_eq_mo (by rw [h]; rfl)]
  | _ =>
    rw [h] at role
    cases role

theorem callNode_covers (role : word.role.isCall = true ∨ word.role = .function) :
    Covers word.leaves word.callNode.leaves := by
  unfold callNode leaves
  cases h : word.role with
  | function => exact .refl _
  | unary kind => cases kind <;> first | exact .refl _ | exact .operator _
  | binary order => exact .operator _
  | _ => simp [h, Role.isCall] at role

theorem barNode_covers (role : word.role = .leftRight) :
    Covers word.leaves word.barNode.leaves := by
  rw [leaves_of_bracket (.inr (.inr role)), barNode, element_eq_mo (by rw [role]; rfl)]
  exact .operator _

theorem unaryNode_covers {kind : UnaryKind} (role : word.role = .unary kind) {s : List Lexeme}
    {argument : Node} (h : Covers (Lexeme.leavesOfList s) argument.leaves) :
    Covers (Lexeme.leavesOfList (word.unaryShown kind s))
      (word.unaryNode kind argument).leaves := by
  cases kind with
  | accentOver =>
    simpa [unaryShown, unaryNode, leaves, role] using h.append (.refl [(.mo, word.symbol.output)])
  | accentUnder =>
    simpa [unaryShown, unaryNode, leaves, role] using h.append (.refl [(.mo, word.symbol.output)])
  | fenced left right =>
    have hfenced := (h.before (.operator right)).after (.operator left)
    simpa [unaryShown, unaryNode, leaves, role] using hfenced
  | _ => simpa [unaryShown, unaryNode, leaves, role] using h

theorem binaryNode_covers {order : ArgOrder} (role : word.role = .binary order) {s t : List Lexeme}
    {first second : Node} (hfirst : Covers (Lexeme.leavesOfList s) first.leaves)
    (hsecond : Covers (Lexeme.leavesOfList t) second.leaves) :
    Covers (Lexeme.leavesOfList (word.binaryShown order s t))
      (word.binaryNode order first second).leaves := by
  cases order with
  | preserve => simpa [binaryShown, binaryNode, leaves, role] using hfirst.append hsecond
  | swap => simpa [binaryShown, binaryNode, leaves, role] using hsecond.append hfirst

end Word

/-! ## Parts of formulas -/

theorem Fragment.node_covers {s : List Lexeme} {n : Node}
    (h : Covers (Lexeme.leavesOfList s) n.leaves) :
    Covers (Lexeme.leavesOfList s) (Fragment.node n).core :=
  h.to_bare (Lexeme.comma_notMem_leavesOfList s)

theorem Word.limitFragment_covers {word : Word} (role : word.role.nests = true) :
    Covers (Lexeme.leavesOfList [.symbol word]) word.limitFragment.core := by
  unfold limitFragment
  split
  · next h =>
    rw [Lexeme.leavesOfList_cons, Lexeme.leaves_symbol, leaves_of_bracket (.inl h)]
    exact .refl []
  · next h => exact Fragment.node_covers (by simpa using barNode_covers h)
  · next hopen hbar =>
    refine Fragment.node_covers ?_
    have hcall : word.role.isCall = true ∨ word.role = .function := by
      cases h : word.role <;> simp_all [Role.nests, Role.isCall]
    simpa using callNode_covers hcall

theorem Fragment.ofGroup_covers {opening : Word} {role : Role} {closing : Option (WordOf role)}
    {content : List Fragment} {bars : Bool} {s : List Lexeme} (hopening : opening.leaves = [])
    (hclosing : role = .closeBracket ∨ role = .leftRight) (hsound : SoundList content)
    (h : Covers (Lexeme.leavesOfList s) (coreOfList content)) :
    Covers (Lexeme.leavesOfList (.symbol opening :: (s ++ Word.closingYield closing)))
      (ofGroup opening closing content bars).core := by
  cases closing with
  | none => simpa [Word.closingYield, hopening, ofGroup, core] using h
  | some word =>
    have hword : word.1.leaves = [] :=
      Word.leaves_of_bracket (.inr (by rw [word.2]; exact hclosing))
    have hresolve := Table.covers_resolve (Lexeme.comma_notMem_leavesOfList s) hsound h
    simpa [Word.closingYield, hopening, hword, ofGroup, core] using hresolve

def Scripts.operands : Scripts → List (Marker × Operand)
  | .done _ => []
  | .cons marker operand more => (marker, operand) :: more.operands

theorem Scripts.chain_eq_map (scripts : Scripts) :
    scripts.chain = scripts.operands.map fun script => (script.1, script.2.fragment.argument) := by
  fun_induction Scripts.operands scripts with
  | case1 reason => rfl
  | case2 marker operand more ih => rw [Scripts.chain, ih, List.map_cons]

theorem Scripts.shownEach_eq_map (scripts : Scripts) :
    scripts.shownEach = scripts.operands.map fun script => (script.1, script.2.shown) := by
  fun_induction Scripts.operands scripts with
  | case1 reason => rfl
  | case2 marker operand more ih => rw [Scripts.shownEach, ih, List.map_cons]

/-- The scripts of a chain show what their operands say. -/
def Scripts.Shows (scripts : Scripts) : Prop :=
  ∀ script ∈ scripts.operands,
    Covers (Lexeme.leavesOfList script.2.shown) script.2.fragment.argument.leaves

theorem Scripts.Shows.covers_chain {scripts : Scripts} (h : scripts.Shows) :
    Covers (Lexeme.leavesOfList (Scripts.arranged scripts.shownEach))
      (Node.leavesOfList ((ScriptLevel.ofChain scripts.chain).flatMap ScriptLevel.nodes)) := by
  have hshown : Lexeme.leavesOfList (Scripts.arranged scripts.shownEach) =
      (ScriptLevel.arrange scripts.operands).flatMap fun script =>
        Lexeme.leavesOfList script.2.shown := by
    rw [Scripts.shownEach_eq_map, Scripts.arranged,
      ScriptLevel.arrange_map Operand.shown]
    simp [Lexeme.leavesOfList, List.flatMap_assoc, List.flatMap_map]
  have hnodes : Node.leavesOfList ((ScriptLevel.ofChain scripts.chain).flatMap ScriptLevel.nodes) =
      (ScriptLevel.arrange scripts.operands).flatMap fun script =>
        script.2.fragment.argument.leaves := by
    rw [ScriptLevel.flatMap_nodes_ofChain, Scripts.chain_eq_map,
      ScriptLevel.arrange_map fun operand : Operand => operand.fragment.argument,
      Node.leavesOfList_eq_flatMap]
    simp [List.flatMap_map]
  rw [hshown, hnodes]
  exact Covers.flatMap fun script hscript => h script ((ScriptLevel.arrange_perm _).subset hscript)

theorem Fragment.withScripts_covers (limits : Bool) {base : Fragment} {scripts : Scripts}
    {s : List Lexeme} (hsound : base.Sound) (hbase : Covers (Lexeme.leavesOfList s) base.core)
    (h : scripts.Shows) :
    Covers (Lexeme.leavesOfList (s ++ Scripts.arranged scripts.shownEach))
      (withScripts limits base scripts.chain).core := by
  have hchain := h.covers_chain
  cases scripts with
  | done reason =>
    simpa [Scripts.shownEach, Scripts.arranged, ScriptLevel.arrange, Scripts.chain, withScripts]
      using hbase
  | cons marker operand more =>
    refine node_covers ?_
    rw [ScriptLevel.leaves_attachAll, Lexeme.leavesOfList_append]
    exact (hbase.trans hsound.covers_single).append hchain

/-! ## Formulas -/

theorem Word.name_covers {word : Word} (role : word.role = .function) {scripts : Scripts}
    (h : scripts.Shows) :
    Covers (Lexeme.leavesOfList (.symbol word :: Scripts.arranged scripts.shownEach))
      (Fragment.withScripts false (.node (.leaf word.symbol.element word.symbol.output))
        scripts.chain).core := by
  refine Fragment.withScripts_covers (s := [.symbol word]) false (Word.name_sound role) ?_ h
  refine Fragment.node_covers ?_
  rw [element_eq_mo (by rw [role]; rfl)]
  simp [Word.leaves, role]

/-- What a fragment shows in every place is shown where it is an argument. -/
theorem Operand.covers_argument {operand : Operand}
    (h : Covers (Lexeme.leavesOfList operand.shown) operand.fragment.core) :
    Covers (Lexeme.leavesOfList operand.shown) operand.fragment.argument.leaves :=
  h.trans (Operand.fragment_sound operand).covers_argument

theorem Operand.scripted_covers {base : Operand} {scripts : Scripts}
    (h : Covers (Lexeme.leavesOfList base.shown) base.fragment.core) (hscripts : scripts.Shows) :
    Covers (Lexeme.leavesOfList (base.shown ++ Scripts.arranged scripts.shownEach))
      (Fragment.withScripts base.takesLimits base.fragment scripts.chain).core :=
  Fragment.withScripts_covers base.takesLimits (Operand.fragment_sound base) h hscripts

theorem Operand.scripted_covers_argument {base : Operand} {scripts : Scripts}
    (h : Covers (Lexeme.leavesOfList base.shown) base.fragment.core) (hscripts : scripts.Shows) :
    Covers (Lexeme.leavesOfList (base.shown ++ Scripts.arranged scripts.shownEach))
      (Fragment.withScripts base.takesLimits base.fragment scripts.chain).argument.leaves :=
  (Operand.scripted_covers h hscripts).trans (Fragment.withScripts_sound base.takesLimits
    (Operand.fragment_sound base) (Scripts.chain_built scripts)).covers_argument

mutual

theorem Operand.fragment_covers : (operand : Operand) →
    Covers (Lexeme.leavesOfList operand.shown) operand.fragment.core
  | .number n => by
    rw [Operand.fragment]
    split
    · exact .refl _
    · exact Fragment.node_covers (.refl _)
  | .text body => Fragment.node_covers (.refl _)
  | .character c => Fragment.node_covers (.refl _)
  | .leaf word role => Fragment.node_covers (by simpa [Operand.shown] using Word.leaf_covers role)
  | .keyword word role => by
    simp [Operand.shown, Operand.fragment, Fragment.core, Word.leaves, role]
  | .strayClosing word role => by
    refine Fragment.node_covers ?_
    simpa [Operand.shown, Word.strayNode, Word.leaves_of_bracket, role] using Covers.operator _
  | .beyondLimit word role => Word.limitFragment_covers role
  | .group opening role body closing =>
    Fragment.ofGroup_covers (Word.leaves_of_bracket (.inl role)) (.inl rfl)
      (Term.fragments_sound body) (Term.fragments_cover body)
  | .loneBar bar role =>
    Fragment.node_covers (by simpa [Operand.shown] using Word.barNode_covers role)
  | .bars opening role body closing =>
    Fragment.ofGroup_covers (Word.leaves_of_bracket (.inr (.inr role))) (.inr rfl)
      (Term.fragments_sound body) (Term.fragments_cover body)
  | .function name role scripts argument => by
    have hhead := (Word.name_covers role (Scripts.operands_cover scripts)).trans
      (Fragment.withScripts_sound false (name.name_sound role)
        (Scripts.chain_built scripts)).covers_single
    have hargument := (Operand.fragment_covers argument).trans
      (Operand.fragment_sound argument).covers_single
    refine Fragment.node_covers ?_
    rw [Operand.shown, ← List.cons_append, Lexeme.leavesOfList_append]
    simpa using hhead.append hargument
  | .functionAlone name role scripts => Word.name_covers role (Scripts.operands_cover scripts)
  | .noArgument word role =>
    Fragment.node_covers (by simpa [Operand.shown] using Word.callNode_covers (.inl role))
  | .verbatim word role body => by
    refine Fragment.node_covers ?_
    simp [Operand.shown, Word.leaves, role]
  | .unary word kind role argument =>
    Fragment.node_covers
      (Word.unaryNode_covers role (Operand.covers_argument (Operand.fragment_covers argument)))
  | .noSecond word order role first => by
    have hfirst := Operand.covers_argument (Operand.fragment_covers first)
    refine Fragment.node_covers ?_
    cases order <;> simpa [Operand.shown, Word.binaryNode, Word.leaves, role] using hfirst
  | .binary word order role first second =>
    Fragment.node_covers (Word.binaryNode_covers role
      (Operand.covers_argument (Operand.fragment_covers first))
      (Operand.covers_argument (Operand.fragment_covers second)))

theorem Scripts.operands_cover : (scripts : Scripts) → scripts.Shows
  | .done _ => nofun
  | .cons marker operand more => by
    intro script hscript
    rcases List.mem_cons.1 hscript with rfl | hscript
    · exact Operand.covers_argument (Operand.fragment_covers operand)
    · exact Scripts.operands_cover more script hscript

theorem Term.fragment_covers : (term : Term) →
    Covers (Lexeme.leavesOfList term.shown) term.fragment.core
  | .scripted base scripts | .noDenominator base scripts =>
    Operand.scripted_covers (Operand.fragment_covers base) (Scripts.operands_cover scripts)
  | .fraction base scripts base' scripts' => by
    have hnumerator := Operand.scripted_covers_argument (Operand.fragment_covers base)
      (Scripts.operands_cover scripts)
    have hdenominator := Operand.scripted_covers_argument (Operand.fragment_covers base')
      (Scripts.operands_cover scripts')
    refine Fragment.node_covers ?_
    simpa [Term.shown] using hnumerator.append hdenominator

theorem Term.fragments_cover : (terms : List Term) →
    Covers (Lexeme.leavesOfList (Term.shownOfList terms))
      (Fragment.coreOfList (Term.fragments terms))
  | [] => .refl []
  | term :: terms => by
    rw [Term.shownOfList, Lexeme.leavesOfList_append]
    exact (Term.fragment_covers term).append (Term.fragments_cover terms)

end

/-- The nodes of a formula show its lexemes. -/
theorem Formula.nodes_cover (formula : List Term) :
    Covers (Lexeme.leavesOfList (Term.shownOfList formula))
      (Node.leavesOfList (Formula.nodes formula)) :=
  (Term.fragments_cover formula).trans
    (Fragment.SoundList.covers_nodes _ (Term.fragments_sound formula))

/-! ## What the input says -/

namespace Lexeme

/-- A text without a minus sign in front. -/
def withoutSign (s : String) : String :=
  match s.toList with
  | '-' :: digits => String.ofList digits
  | _ => s

def number? (x : Lexeme) : Option String :=
  if x.kind = .number then some (withoutSign x.raw) else none

def text? (x : Lexeme) : Option String := if x.kind = .text then some x.raw else none

/-- The identifier that a symbol stands for, or a word or mark that no symbol is known for. -/
def identifier? (x : Lexeme) : Option String :=
  match x.symbol? with
  | some meaning => if meaning.element = .mi then some meaning.output else none
  | none => if x.kind = .word ∨ x.kind = .punctuation then some x.raw else none

/-- The operator that a symbol stands for, but for those that may part or join other operands. -/
def operator? (x : Lexeme) : Option String :=
  match x.symbol? with
  | none => none
  | some meaning =>
    match meaning.role with
    | .identifier => if meaning.element = .mo then some meaning.output else none
    | .operator => if x.raw ∈ [",", "/", "_", "^"] then none else some meaning.output
    | .embellished | .wordOperator | .function | .unary .accentOver | .unary .accentUnder =>
      some meaning.output
    | _ => none

theorem textsOf_leavesOfList {element : Element} {reading : Lexeme → Option String}
    {s : List Lexeme} (h : ∀ x ∈ s, textsOf element x.leaves = (reading x).toList) :
    textsOf element (leavesOfList s) = s.filterMap reading := by
  induction s with
  | nil => rfl
  | cons x s ih =>
    rw [List.forall_mem_cons] at h
    rw [leavesOfList_cons, textsOf_append, h.1, ih h.2, List.filterMap_cons]
    cases reading x <;> rfl

theorem kind_symbol (word : Word) :
    (symbol word).kind = .word ∨ (symbol word).kind = .punctuation := by
  unfold kind
  simp only
  split
  · exact .inl rfl
  · exact .inr rfl

theorem kind_character (c : Char) :
    (character c).kind = .word ∨ (character c).kind = .punctuation := by
  unfold kind
  simp only
  split
  · exact .inl rfl
  · exact .inr rfl

/-- A word has operators, or the leaf of an identifier. -/
theorem textsOf_word_of_ne {element : Element} {word : Word} (h : element ≠ .mo)
    (helement : word.role = .identifier → word.symbol.element ≠ element) :
    textsOf element word.leaves = [] := by
  have hoperator : textsOf element [(.mo, word.symbol.output)] = [] := by
    simp [textsOf, Ne.symm h]
  unfold Word.leaves
  split
  · next role => simp [textsOf, helement role]
  · split
    · rfl
    · exact hoperator
  all_goals first
    | exact hoperator
    | rfl

theorem element_ne_of_identifier {word : Word} {element : Element} (h : element ≠ .mo)
    (h' : element ≠ .mi) (role : word.role = .identifier) : word.symbol.element ≠ element := by
  rintro rfl
  have hmem := word.element_mem
  rw [role] at hmem
  simp [Symbol.elements, h, h'] at hmem

theorem withoutSign_raw {n : Numeral} (h : ∀ c ∈ n.digits.toList, c ≠ '-') :
    withoutSign n.raw = n.digits := by
  unfold withoutSign
  cases hnegative : n.negative with
  | true => simp [Numeral.raw, hnegative]
  | false =>
    have hraw : n.raw = n.digits := by simp [Numeral.raw, hnegative]
    rw [hraw]
    split
    · next digits hdigits => exact absurd rfl (h '-' (by rw [hdigits]; exact List.mem_cons_self))
    · rfl

theorem textsOf_number {x : Lexeme} (h : ∀ n, x = .number n → ∀ c ∈ n.digits.toList, c ≠ '-') :
    textsOf .mn x.leaves = x.number?.toList := by
  cases x with
  | number n =>
    have hnumber : (number n).number? = some (withoutSign n.raw) := rfl
    rw [hnumber, withoutSign_raw (h n rfl)]
    rfl
  | text body => rfl
  | character c =>
    rcases kind_character c with h | h <;> simp [textsOf, number?, h]
  | symbol word =>
    rw [leaves_symbol, textsOf_word_of_ne (by decide)
      (element_ne_of_identifier (by decide) (by decide))]
    rcases kind_symbol word with h | h <;> simp [number?, h]

theorem textsOf_text (x : Lexeme) : textsOf .mtext x.leaves = x.text?.toList := by
  cases x with
  | number n => rfl
  | text body => rfl
  | character c =>
    rcases kind_character c with h | h <;> simp [textsOf, text?, h]
  | symbol word =>
    rw [leaves_symbol, textsOf_word_of_ne (by decide)
      (element_ne_of_identifier (by decide) (by decide))]
    rcases kind_symbol word with h | h <;> simp [text?, h]

theorem textsOf_identifier (x : Lexeme) : textsOf .mi x.leaves = x.identifier?.toList := by
  cases x with
  | number n => rfl
  | text body => rfl
  | character c => simp [textsOf, identifier?, symbol?, kind_character, raw]
  | symbol word =>
    by_cases h : word.symbol.element = .mi
    · have role := word.role_of_element_mi h
      simp [textsOf, identifier?, symbol?, Word.leaves, role, h]
    · rw [leaves_symbol, textsOf_word_of_ne (by decide) fun _ => h]
      simp [identifier?, symbol?, h]

theorem textsOf_operator (x : Lexeme) : textsOf .mo x.leaves = x.operator?.toList := by
  cases x with
  | symbol word =>
    simp only [leaves_symbol, operator?, symbol?, Word.leaves]
    rw [Word.role]
    cases word.symbol.role with
    | unary kind => cases kind <;> rfl
    | identifier => by_cases h : word.symbol.element = .mo <;> simp [textsOf, h]
    | operator => by_cases h : word.spelling ∈ [",", "/", "_", "^"] <;> simp only [raw, h] <;> rfl
    | _ => rfl
  | _ => rfl

end Lexeme

theorem leaves_compile (settings : Settings) (input : String) :
    (compile settings input).leaves =
      Node.leavesOfList (Formula.nodes (Formula.ofInput input)) := by
  simp [compile, Settings.assemble, Node.leaves]

theorem digits_of_mem_lexemes {input : String} {n : Numeral} (h : .number n ∈ lexemes input) :
    ∀ c ∈ n.digits.toList, c ≠ '-' := by
  rw [lexemes_eq] at h
  refine Scan.forall_mem_lexemes (P := fun x => ∀ n, x = .number n →
    ∀ c ∈ n.digits.toList, c ≠ '-') (fun context c s n hn => ?_) _ _ _ h n rfl
  exact Scan.number?_digits (Scan.number?_of_lexeme hn)

/-- No number, text or identifier of the input is lost or shown twice, and no operator is lost. -/
theorem content_compile (settings : Settings) (input : String) :
    ((compile settings input).texts .mn).Perm ((lexemes input).filterMap Lexeme.number?) ∧
    ((compile settings input).texts .mtext).Perm ((lexemes input).filterMap Lexeme.text?) ∧
    ((compile settings input).texts .mi).Perm ((lexemes input).filterMap Lexeme.identifier?) ∧
    ∀ text, ((lexemes input).filterMap Lexeme.operator?).count text ≤
      ((compile settings input).texts .mo).count text := by
  have hcover := Formula.nodes_cover (Formula.ofInput input)
  rw [← leaves_compile settings input] at hcover
  have hperm := Term.shownOfList_perm (Formula.ofInput input)
  rw [Formula.ofInput, Formula.yieldOfList_parse] at hperm
  refine ⟨?_, ?_, ?_, fun text => ?_⟩
  · rw [Node.texts, hcover.textsOf_eq (by decide),
      Lexeme.textsOf_leavesOfList fun x hx => Lexeme.textsOf_number ?_]
    · exact hperm.filterMap _
    · rintro n rfl
      exact digits_of_mem_lexemes (hperm.subset hx)
  · rw [Node.texts, hcover.textsOf_eq (by decide),
      Lexeme.textsOf_leavesOfList fun x _ => x.textsOf_text]
    exact hperm.filterMap _
  · rw [Node.texts, hcover.textsOf_eq (by decide),
      Lexeme.textsOf_leavesOfList fun x _ => x.textsOf_identifier]
    exact hperm.filterMap _
  · have hcount := hcover.count_textsOf_le .mo text
    rw [Lexeme.textsOf_leavesOfList fun x _ => x.textsOf_operator] at hcount
    rw [← (hperm.filterMap _).count_eq]
    exact hcount

end FormulaMarkup
