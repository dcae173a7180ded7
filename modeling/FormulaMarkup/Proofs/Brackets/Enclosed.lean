import FormulaMarkup.Proofs.Brackets.BarUses
import FormulaMarkup.Proofs.Construction

/-!
# Commas between brackets

The brackets of each term of a formula are among the lexemes of that term. So a comma that is a term
by itself stands outside all brackets, and where there is none the formula is no table.
-/

namespace FormulaMarkup

/-! ## Where the brackets of a part are -/

namespace Brackets

/-- The place is between two brackets that belong together. -/
def Encloses (b : Brackets) (place : Nat) : Prop :=
  ∃ pair ∈ b.pairs, pair.1 < place ∧ place < pair.2

instance (b : Brackets) (place : Nat) : Decidable (b.Encloses place) :=
  inferInstanceAs (Decidable (∃ pair ∈ b.pairs, pair.1 < place ∧ place < pair.2))

/-- Brackets that belong together are at places from `i` on and before `j`. -/
def Within (i j : Nat) (b : Brackets) : Prop := ∀ pair ∈ b.pairs, i ≤ pair.1 ∧ pair.2 < j

theorem encloses_seq {a b : Brackets} {place : Nat} :
    (a.seq b).Encloses place ↔ a.Encloses place ∨ b.Encloses place := by
  simp [Encloses, seq, or_and_right, exists_or]

namespace Within

variable {i j k l : Nat} {a b : Brackets}

theorem mono (h : Within i j b) (hi : k ≤ i) (hj : j ≤ l) : Within k l b := by
  intro pair hpair
  obtain ⟨hfirst, hsecond⟩ := h pair hpair
  omega

theorem seq (ha : Within i j a) (hb : Within i j b) : Within i j (a.seq b) :=
  List.forall_mem_append.2 ⟨ha, hb⟩

theorem of_pairs (h : b.pairs = []) : Within i j b := by
  intro pair hpair
  rw [h] at hpair
  cases hpair

theorem ofGroup (opening : Word) (closing : Option (WordOf .closeBracket)) :
    Within i (j + (Word.closingYield closing).length) (.ofGroup i j opening closing) := by
  cases closing with
  | none => exact of_pairs rfl
  | some word => simp [Within, Brackets.ofGroup, Word.closingYield]

theorem ofBars (opening : Word) (closing : Option (WordOf .leftRight)) :
    Within i j (.ofBars k opening closing) := by
  cases closing <;> exact of_pairs rfl

/-- Before its first place and behind its last one a part encloses nothing. -/
theorem not_encloses (h : Within i j b) {place : Nat} (hplace : place ≤ i ∨ j ≤ place) :
    ¬ b.Encloses place := by
  rintro ⟨pair, hpair, hfirst, hsecond⟩
  obtain ⟨hi, hj⟩ := h pair hpair
  omega

end Within

end Brackets

open Brackets (Within)

mutual

theorem Operand.brackets_within : (operand : Operand) → (i : Nat) →
    Within i (i + operand.yield.length) (operand.brackets i)
  | .number _, _ | .text _, _ | .character _, _ | .leaf _ _, _ | .keyword _ _, _
  | .strayClosing _ _, _ | .beyondLimit _ _, _ | .loneBar _ _, _ | .noArgument _ _, _
  | .verbatim _ _ _, _ => .of_pairs rfl
  | .group opening _ body closing, i => by
    have hbody := Term.brackets_within_list body (i + 1)
    have hgroup : Within i _ _ :=
      .ofGroup opening closing (j := i + 1 + (Term.yieldOfList body).length)
    simp only [Operand.yield, List.length_cons, List.length_append]
    exact (hbody.mono (by omega) (by omega)).seq (hgroup.mono (by omega) (by omega))
  | .bars opening _ body closing, i => by
    have hbody := Term.brackets_within_list body (i + 1)
    simp only [Operand.yield, List.length_cons, List.length_append]
    exact (hbody.mono (by omega) (by omega)).seq (.ofBars opening closing)
  | .function _ _ scripts argument, i => by
    have hscripts := Scripts.brackets_within scripts (i + 1)
    have hargument := Operand.brackets_within argument (i + 1 + scripts.yield.length)
    simp only [Operand.yield, List.length_cons, List.length_append]
    exact (hscripts.mono (by omega) (by omega)).seq (hargument.mono (by omega) (by omega))
  | .functionAlone _ _ scripts, i => by
    have hscripts := Scripts.brackets_within scripts (i + 1)
    simp only [Operand.yield, List.length_cons]
    exact hscripts.mono (by omega) (by omega)
  | .unary _ _ _ argument, i => by
    have hargument := Operand.brackets_within argument (i + 1)
    simp only [Operand.yield, List.length_cons]
    exact hargument.mono (by omega) (by omega)
  | .noSecond _ _ _ first, i => by
    have hfirst := Operand.brackets_within first (i + 1)
    simp only [Operand.yield, List.length_cons]
    exact hfirst.mono (by omega) (by omega)
  | .binary _ _ _ first second, i => by
    have hfirst := Operand.brackets_within first (i + 1)
    have hsecond := Operand.brackets_within second (i + 1 + first.yield.length)
    simp only [Operand.yield, List.length_cons, List.length_append]
    exact (hfirst.mono (by omega) (by omega)).seq (hsecond.mono (by omega) (by omega))

theorem Scripts.brackets_within : (scripts : Scripts) → (i : Nat) →
    Within i (i + scripts.yield.length) (scripts.brackets i)
  | .done _, _ => .of_pairs rfl
  | .cons _ operand more, i => by
    have hoperand := Operand.brackets_within operand (i + 1)
    have hmore := Scripts.brackets_within more (i + 1 + operand.yield.length)
    simp only [Scripts.yield, List.length_cons, List.length_append]
    exact (hoperand.mono (by omega) (by omega)).seq (hmore.mono (by omega) (by omega))

theorem Term.brackets_within : (term : Term) → (i : Nat) →
    Within i (i + term.yield.length) (term.brackets i)
  | .scripted base scripts, i | .noDenominator base scripts, i => by
    have hbase := Operand.brackets_within base i
    have hscripts := Scripts.brackets_within scripts (i + base.yield.length)
    simp only [Term.yield, List.length_append]
    exact (hbase.mono (by omega) (by omega)).seq (hscripts.mono (by omega) (by omega))
  | .fraction base scripts base' scripts', i => by
    let j := i + base.yield.length + scripts.yield.length + 1
    have hbase := Operand.brackets_within base i
    have hscripts := Scripts.brackets_within scripts (i + base.yield.length)
    have hbase' := Operand.brackets_within base' j
    have hscripts' := Scripts.brackets_within scripts' (j + base'.yield.length)
    simp only [Term.yield, List.length_cons, List.length_append]
    exact (hbase.mono (by omega) (by omega)).seq ((hscripts.mono (by omega) (by omega)).seq
      ((hbase'.mono (by omega) (by omega)).seq (hscripts'.mono (by omega) (by omega))))

theorem Term.brackets_within_list : (terms : List Term) → (i : Nat) →
    Within i (i + (Term.yieldOfList terms).length) (Term.bracketsOfList terms i)
  | [], _ => .of_pairs rfl
  | term :: terms, i => by
    have hterm := Term.brackets_within term i
    have hterms := Term.brackets_within_list terms (i + term.yield.length)
    simp only [Term.yieldOfList, List.length_append]
    exact (hterm.mono (by omega) (by omega)).seq (hterms.mono (by omega) (by omega))

end

/-! ## Commas -/

theorem Node.text_of_isOperator {node : Node} {text : String} (h : node.isOperator text = true) :
    node.text = some text := by
  rw [isOperator, Bool.and_eq_true] at h
  exact of_decide_eq_true h.2

theorem ScriptLevel.text_attachAll (limits : Bool) {base : Node} {levels : List ScriptLevel}
    (h : levels ≠ []) : (attachAll limits base levels).text = none := by
  have hattach : ∀ limits base (level : ScriptLevel), (level.attach limits base).text = none := by
    intro limits base level
    obtain ⟨element, -, -, heq⟩ := attach_eq limits base level
    rw [heq]
    rfl
  cases levels with
  | nil => exact absurd rfl h
  | cons level levels =>
    rw [attachAll]
    rcases List.eq_nil_or_concat levels with rfl | ⟨levels, last, rfl⟩
    · exact hattach limits base level
    · rw [List.concat_eq_append, List.foldl_append]
      exact hattach false _ last

/-- With scripts a fragment is no comma. -/
theorem Fragment.withScripts_of_isComma {limits : Bool} {base : Fragment} {scripts : Scripts}
    (h : (withScripts limits base scripts.chain).isComma = true) :
    base.isComma = true ∧ ∃ reason, scripts = .done reason := by
  cases scripts with
  | done reason => exact ⟨h, reason, rfl⟩
  | cons marker operand more =>
    have hlevels :
        ScriptLevel.ofChain ((marker, operand.fragment.argument) :: more.chain) ≠ [] := by
      unfold ScriptLevel.ofChain
      split <;> simp_all
    have htext := Node.text_of_isOperator h
    rw [ScriptLevel.text_attachAll _ hlevels] at htext
    cases htext

namespace Word

variable {word : Word}

theorem eq_comma_of_callNode (h : word.callNode.isOperator "," = true) : word = comma := by
  have htext := Node.text_of_isOperator h
  unfold callNode at htext
  split at htext
  · exact eq_comma_of_output (Option.some.inj htext)
  · exact eq_comma_of_output (Option.some.inj htext)
  · exact eq_comma_of_output (Option.some.inj htext)
  · exact eq_comma_of_spelling (Option.some.inj htext)

theorem eq_comma_of_strayNode (h : word.strayNode.isOperator "," = true) : word = comma := by
  have htext := Option.some.inj (Node.text_of_isOperator h)
  split at htext
  · exact eq_comma_of_spelling htext
  · exact eq_comma_of_output htext

theorem text_unaryNode (word : Word) (kind : UnaryKind) (argument : Node) :
    (word.unaryNode kind argument).text = none := by
  cases kind <;> rfl

theorem text_binaryNode (word : Word) (order : ArgOrder) (first second : Node) :
    (word.binaryNode order first second).text = none := by
  cases order <;> rfl

end Word

/-- Nothing but a comma looks like one. -/
theorem Operand.eq_comma {operand : Operand} (h : operand.fragment.isComma = true) :
    operand = .leaf .comma rfl := by
  cases operand with
  | leaf word role =>
    obtain rfl := Word.eq_comma_of_output (Option.some.inj (Node.text_of_isOperator h))
    rfl
  | strayClosing word role =>
    obtain rfl := Word.eq_comma_of_strayNode h
    cases role
  | functionAlone name role scripts =>
    have hname := (Fragment.withScripts_of_isComma h).1
    obtain rfl := Word.eq_comma_of_output (Option.some.inj (Node.text_of_isOperator hname))
    cases role
  | noArgument word role =>
    obtain rfl := Word.eq_comma_of_callNode h
    cases role
  | beyondLimit word role =>
    simp only [Operand.fragment, Word.limitFragment] at h
    split at h
    · cases h
    · cases h
    · obtain rfl := Word.eq_comma_of_callNode h
      cases role
  | number n =>
    unfold Operand.fragment at h
    split at h <;> cases h
  | group opening _ body closing => cases closing <;> cases h
  | bars opening _ body closing => cases closing <;> cases h
  | unary word kind _ argument =>
    have htext := Node.text_of_isOperator h
    rw [Word.text_unaryNode] at htext
    cases htext
  | noSecond word order _ first | binary word order _ first second =>
    have htext := Node.text_of_isOperator h
    rw [Word.text_binaryNode] at htext
    cases htext
  | _ => cases h

/-- A term that looks like a comma is one. -/
theorem Term.comma_of_isComma {term : Term} (h : term.fragment.isComma = true) :
    term.yield = [.symbol .comma] ∧ ∀ i, term.brackets i = .empty := by
  cases term with
  | scripted base scripts | noDenominator base scripts =>
    obtain ⟨hbase, reason, rfl⟩ := Fragment.withScripts_of_isComma h
    obtain rfl := Operand.eq_comma hbase
    exact ⟨rfl, fun _ => rfl⟩
  | fraction base scripts base' scripts' => cases h

/-! ## Commas of a formula -/

theorem Term.yieldOfList_append (terms more : List Term) :
    yieldOfList (terms ++ more) = yieldOfList terms ++ yieldOfList more := by
  induction terms with
  | nil => rfl
  | cons term terms ih => rw [List.cons_append, yieldOfList, yieldOfList, ih, List.append_assoc]

/-- A term that is a comma stands outside all brackets of the formula. -/
theorem Term.not_encloses_of_isComma {term : Term} (h : term.fragment.isComma = true) :
    (before after : List Term) → (i : Nat) →
      ¬ (bracketsOfList (before ++ term :: after) i).Encloses (i + (yieldOfList before).length)
  | [], after, i => by
    obtain ⟨hyield, hempty⟩ := comma_of_isComma h
    have hafter := Term.brackets_within_list after (i + term.yield.length)
    rw [List.nil_append, bracketsOfList, Brackets.encloses_seq, hempty]
    refine not_or.2 ⟨?_, hafter.not_encloses (.inl (by simp [hyield, yieldOfList]))⟩
    rintro ⟨pair, hpair, -⟩
    cases hpair
  | first :: before, after, i => by
    have hmore := not_encloses_of_isComma h before after (i + first.yield.length)
    rw [List.cons_append, bracketsOfList, Brackets.encloses_seq, yieldOfList, List.length_append,
      ← Nat.add_assoc]
    exact not_or.2 ⟨(Term.brackets_within first i).not_encloses (.inr (by omega)), hmore⟩

/-- Where a term that is a comma stands in its formula. -/
theorem Formula.getElem?_of_isComma {s : List Lexeme} {before after : List Term} {term : Term}
    (hparse : parse s = before ++ term :: after) (h : term.fragment.isComma = true) :
    s[(Term.yieldOfList before).length]? = some (.symbol .comma) := by
  rw [← yieldOfList_parse s, hparse, Term.yieldOfList_append, Term.yieldOfList,
    (Term.comma_of_isComma h).1, List.getElem?_append_right (Nat.le_refl _), Nat.sub_self]
  rfl

/-- Without a comma between its fragments the content of a group is no table. -/
theorem Table.resolve_eq_self {content : List Fragment}
    (h : ∀ fragment ∈ content, fragment.isComma = false) : resolve content = content := by
  have hrows : ∀ first second rows, rows? content ≠ some (first :: second :: rows) := by
    intro first second rows hrows
    unfold rows? at hrows
    split at hrows
    · cases hrows
    · obtain ⟨row, -, hrow⟩ := Option.map_eq_some_iff.1 hrows
      cases hrow
    · next fragment comma fragments =>
      rw [h comma (by simp)] at hrows
      cases hrows
  have htable : ofContent? content = none := by
    unfold ofContent?
    split
    · next first second rows hsome => exact absurd hsome (hrows first second rows)
    · rfl
  rw [resolve, htable]

theorem Term.mem_fragments {terms : List Term} {fragment : Fragment}
    (h : fragment ∈ fragments terms) : ∃ term ∈ terms, fragment = term.fragment := by
  induction terms with
  | nil => cases h
  | cons term terms ih =>
    rcases List.mem_cons.1 h with rfl | h
    · exact ⟨term, List.mem_cons_self, rfl⟩
    · obtain ⟨other, hother, rfl⟩ := ih h
      exact ⟨other, List.mem_cons_of_mem _ hother, rfl⟩

/-- No term is a comma if all commas are in brackets or between bars. -/
theorem Formula.isComma_eq_false {s : List Lexeme} (hn : Shallow (Term.noticesOfList (parse s)))
    (hcomma : ∀ k, s[k]? = some (.symbol .comma) →
      (Brackets.matched s).Encloses k ∨ BetweenBars (barUses (parse s)) k) :
    ∀ fragment ∈ Term.fragments (parse s), fragment.isComma = false := by
  intro fragment hfragment
  obtain ⟨term, hterm, rfl⟩ := Term.mem_fragments hfragment
  cases hisComma : term.fragment.isComma with
  | false => rfl
  | true =>
    obtain ⟨before, after, hparse⟩ := List.append_of_mem hterm
    have hbars := not_betweenBars_between before (term :: after)
    have hbrackets := Term.not_encloses_of_isComma hisComma before after 0
    rw [← hparse] at hbars hbrackets
    rw [(parse_reads s).brackets_eq hn, Nat.zero_add] at hbrackets
    rcases hcomma _ (getElem?_of_isComma hparse hisComma) with hencloses | hbetween
    · exact absurd hencloses hbrackets
    · exact absurd hbetween hbars

/-- A formula with no comma outside its brackets is no table. -/
theorem Formula.resolve_fragments {s : List Lexeme} (hn : Shallow (Term.noticesOfList (parse s)))
    (hcomma : ∀ k, s[k]? = some (.symbol .comma) → (Brackets.ofLexemes 0 [] s).Encloses k) :
    Table.resolve (Term.fragments (parse s)) = Term.fragments (parse s) :=
  Table.resolve_eq_self (isComma_eq_false hn fun k hk => .inl (hcomma k hk))

end FormulaMarkup
