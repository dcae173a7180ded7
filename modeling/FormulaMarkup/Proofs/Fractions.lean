import FormulaMarkup.Proofs.Standalone

/-!
# Chains of fractions

A fraction takes the operands on both sides of its bar and no more. So the next bar is left over, it
stands as an operator, and with what follows it the chain begins anew.
-/

namespace FormulaMarkup

/-- Operands with fraction bars between them. -/
def fractionsInput (os : List String) : String := " / ".intercalate os

/-- The markup of a chain without the bars that are left over: two operands at a time are a
fraction, and a single one at the end stands as it is on its own. -/
def fractionItems (settings : Settings) : List String → List (List Node)
  | [] => []
  | [o] => [body settings o]
  | a :: b :: os =>
    [.container .mfrac [argumentNode a, argumentNode b]] :: fractionItems settings os

theorem fractionItems_ne_nil (settings : Settings) (o : String) (os : List String) :
    fractionItems settings (o :: os) ≠ [] := by
  cases os <;> exact List.cons_ne_nil _ _

/-! ## Lexemes -/

/-- An operand that is no mark by itself is not drawn to what stands before it. -/
theorem IsOperand.separate {a : String} (h : IsOperand a)
    (hmark : ∀ word : Word, lexemes a = [.symbol word] → word.spelling ∉ ["/", "_", "^"]) :
    Formula.Separate (lexemes a) := by
  cases h with
  | atom token tokens terminated isAtom =>
    have hlexemes : lexemes a = [token.lexeme] := by rw [lexemes, tokens]; rfl
    rw [hlexemes] at hmark ⊢
    rintro x ⟨⟩
    constructor
    · cases hmarker : token.lexeme.marker? with
      | none => rfl
      | some marker =>
        rw [Lexeme.eq_of_marker? hmarker] at hmark
        exact absurd (by cases marker <;> decide) (hmark marker.word rfl)
    · intro hslash
      rw [hslash] at hmark
      exact absurd (by decide) (hmark .slash rfl)
  | group opening content closing hlexemes _ _ _ =>
    rw [hlexemes]
    exact Formula.separate_of_role (by simp [opening.2]) _

theorem lexemes_fractionsInput {os : List String} (h : ∀ o ∈ os, IsOperand o) :
    lexemes (fractionsInput os) = [.symbol .slash].intercalate (os.map lexemes) := by
  induction os with
  | nil => exact (lexemes_eq "").trans (Scan.lexemes_of_nil rfl)
  | cons o os ih =>
    obtain ⟨ho, h⟩ := List.forall_mem_cons.1 h
    cases os with
    | nil => simp [fractionsInput]
    | cons next os =>
      have hinput : fractionsInput (o :: next :: os) =
          o ++ " " ++ (Word.slash.spelling ++ " " ++ fractionsInput (next :: os)) := by
        rw [fractionsInput, String.intercalate_cons_cons, String.append_assoc, String.append_assoc]
        rfl
      rw [hinput, ho.isClosed.lexemes_append_word rfl rfl, ih h, List.map_cons, List.map_cons,
        List.map_cons, List.intercalate_cons_cons, List.append_assoc]
      rfl

/-! ## Reading a chain -/

namespace Formula

variable {s t : List Lexeme}

/-- A fraction is read whatever follows its denominator, unless that is a script. -/
theorem parse_fraction {a b : Operand} (ha : Freestanding s a) (hb : Freestanding t b)
    (left : List Lexeme) (hleft : ∀ x ∈ left.head?, x.marker? = none) :
    parse (s ++ .symbol .slash :: (t ++ left)) =
      .fraction a (.done .complete) b (.done .complete) :: parse left := by
  have hslash : ∀ x ∈ (Lexeme.symbol .slash :: (t ++ left)).head?, x.marker? = none := by
    rintro x ⟨⟩
    decide
  have hdenominator := atOperandEnd_append hb.starts left
  exact parse_eq_iff.2 (.cons (ha.goes _) (.fraction (ha.reads _) (.complete hslash) hdenominator
    (hb.reads left) (.complete hleft)) (parse_reads left))

/-- Where an operand should begin, a bar is one. -/
theorem parse_slash (hs : Separate s) :
    parse (.symbol .slash :: s) = .scripted (.leaf .slash rfl) (.done .complete) :: parse s :=
  parse_eq_iff.2 (.cons rfl (.scripted (.leaf .slash rfl) (.complete fun x hx => (hs x hx).1)
    fun hslash => (hs _ hslash).2 rfl) (parse_reads s))

theorem nodes_fraction {a b : String} {numerator denominator : Operand}
    (ha : Represents numerator a) (hb : Represents denominator b) (terms : List Term) :
    nodes (.fraction numerator (.done .complete) denominator (.done .complete) :: terms) =
      .container .mfrac [argumentNode a, argumentNode b] :: nodes terms := by
  rw [← ha.argument, ← hb.argument]
  rfl

theorem nodes_slash (terms : List Term) :
    nodes (.scripted (.leaf .slash rfl) (.done .complete) :: terms) =
      .leaf .mo "/" :: nodes terms := rfl

theorem Represents.separate_chain {o : String} {operand : Operand} (h : Represents operand o)
    (hseparate : Separate (lexemes o)) (os : List String) :
    Separate ([.symbol .slash].intercalate (lexemes o :: os.map lexemes)) := by
  cases hlexemes : lexemes o with
  | nil =>
    have hstarts := h.starts
    rw [hlexemes] at hstarts
    cases hstarts
  | cons x s =>
    rw [hlexemes] at hseparate
    cases os with
    | nil => simpa using hseparate
    | cons next os => simpa [Separate] using hseparate

/-- A chain is read two operands at a time, as its items are counted. -/
theorem nodes_parse_chain (settings : Settings) {os : List String}
    (h : ∀ o ∈ os, IsOperand o ∧ Separate (lexemes o)) :
    nodes (parse ([.symbol .slash].intercalate (os.map lexemes))) =
      [.leaf .mo "/"].intercalate (fractionItems settings os) := by
  fun_induction fractionItems settings os with
  | case1 =>
    rw [List.map_nil, List.intercalate_nil, List.intercalate_nil, parse_eq_iff.2 (.nil rfl)]
    rfl
  | case2 o =>
    rw [List.map_singleton, List.intercalate_singleton, List.intercalate_singleton, body_eq,
      ofInput]
  | case3 a b os ih =>
    obtain ⟨⟨ha, -⟩, ⟨hb, -⟩, hos⟩ : _ ∧ _ ∧ ∀ o ∈ os, _ := by
      rwa [List.forall_mem_cons, List.forall_mem_cons] at h
    obtain ⟨numerator, hnumerator⟩ := ha.exists_represents
    obtain ⟨denominator, hdenominator⟩ := hb.exists_represents
    have hfraction := parse_fraction hnumerator.toFreestanding hdenominator.toFreestanding
    cases os with
    | nil =>
      have hlast := hfraction [] (by simp)
      rw [List.append_nil] at hlast
      simp only [List.map_cons, List.map_nil, List.intercalate_cons_cons,
        List.intercalate_singleton, List.append_assoc, List.singleton_append, fractionItems]
      rw [hlast, nodes_fraction hnumerator hdenominator, parse_eq_iff.2 (.nil rfl)]
      rfl
    | cons c os =>
      obtain ⟨⟨hc, hseparate⟩, -⟩ := List.forall_mem_cons.1 hos
      obtain ⟨operand, hoperand⟩ := hc.exists_represents
      have hchain := hoperand.separate_chain hseparate os
      obtain ⟨item, items, hitems⟩ := List.exists_cons_of_ne_nil
        (fractionItems_ne_nil settings c os)
      have hmore := ih hos
      simp only [List.map_cons, List.intercalate_cons_cons, List.append_assoc,
        List.singleton_append, hitems] at hmore ⊢
      rw [hfraction, nodes_fraction hnumerator hdenominator, parse_slash hchain, nodes_slash, hmore]
      · rfl
      · rintro x ⟨⟩
        decide

end Formula

/-! ## The markup -/

open Formula

/-- In a chain of operands with fraction bars between them every other bar makes a fraction of the
operands beside it, which lose brackets around them. The bars between the fractions stay. -/
theorem body_fractionsInput (settings : Settings) {os : List String} (h : ∀ o ∈ os, IsOperand o)
    (hmark : ∀ o ∈ os, ∀ word : Word, lexemes o = [.symbol word] →
      word.spelling ∉ ["/", "_", "^"]) :
    body settings (fractionsInput os) =
      [.leaf .mo "/"].intercalate (fractionItems settings os) := by
  have hparts : ∀ o ∈ os, IsOperand o ∧ Separate (lexemes o) :=
    fun o ho => ⟨h o ho, (h o ho).separate (hmark o ho)⟩
  rw [body_eq, ofInput, lexemes_fractionsInput h, nodes_parse_chain settings hparts]

/-- A group and a negative number in the first fraction, a keyword and a limit sign in the second,
and a group on its own, which keeps its brackets. -/
theorem body_fractionsInput_groups :
    let os := ["(a + b)", "-2", "if", "sum", "[x]"]
    (∀ o ∈ os, IsOperand o) ∧
      (∀ o ∈ os, ∀ word : Word, lexemes o = [.symbol word] → word.spelling ∉ ["/", "_", "^"]) ∧
      fractionsInput os = "(a + b) / -2 / if / sum / [x]" ∧
      body .default "(a + b) / -2 / if / sum / [x]" =
        [.container .mfrac [.row [.leaf .mi "a", .leaf .mo "+", .leaf .mi "b"],
            .row [.leaf .mo "-", .leaf .mn "2"]],
          .leaf .mo "/",
          .container .mfrac [Fragment.keywordRow (.wordOperator "if"), .leaf .mo "∑"],
          .leaf .mo "/",
          .row [.leaf .mo "[", .leaf .mi "x", .leaf .mo "]"]] := by
  intro os
  have hsum : lexemes "(a + b)" = .symbol ⟨"(", .openBracket "(", by decide +kernel⟩ ::
      ([.character 'a', .symbol ⟨"+", .operator "+", by decide +kernel⟩, .character 'b'] ++
        [.symbol ⟨")", .closeBracket ")", by decide +kernel⟩]) := by decide +kernel
  have hlist : lexemes "[x]" = .symbol ⟨"[", .openBracket "[", by decide +kernel⟩ ::
      ([.character 'x'] ++ [.symbol ⟨"]", .closeBracket "]", by decide +kernel⟩]) := by
    decide +kernel
  have hinput : fractionsInput os = "(a + b) / -2 / if / sum / [x]" := by decide +kernel
  have hnumber : tokenize "-2" = [⟨.number ⟨true, "2", by decide⟩, 0, 2⟩] := by decide +kernel
  have hif : tokenize "if" = [⟨.symbol ⟨"if", .wordOperator "if", by decide +kernel⟩, 0, 2⟩] := by
    decide +kernel
  have hlimits : tokenize "sum" =
      [⟨.symbol ⟨"sum", .largeOperator "∑", by decide +kernel⟩, 0, 3⟩] := by decide +kernel
  have h : ∀ o ∈ os, IsOperand o := by
    simp only [os, List.forall_mem_cons]
    refine ⟨?_, .of_token hnumber (by simp) rfl, .of_token hif (by simp) rfl,
      .of_token hlimits (by simp) rfl, ?_, List.forall_mem_nil _⟩
    · refine .group ⟨_, rfl⟩ _ ⟨_, rfl⟩ hsum ⟨rfl, rfl⟩ ?_ ?_
      · exact fun k hk => absurd (List.mem_of_getElem? hk) (by decide +kernel)
      · rw [notices, ofInput, hsum]
        decide +kernel
    · refine .group ⟨_, rfl⟩ _ ⟨_, rfl⟩ hlist ⟨rfl, rfl⟩ ?_ ?_
      · exact fun k hk => absurd (List.mem_of_getElem? hk) (by decide +kernel)
      · rw [notices, ofInput, hlist]
        decide +kernel
  have hmark : ∀ o ∈ os, ∀ word : Word, lexemes o = [.symbol word] →
      word.spelling ∉ ["/", "_", "^"] := by
    simp only [os, List.forall_mem_cons]
    refine ⟨?_, ?_, ?_, ?_, ?_, List.forall_mem_nil _⟩
    · intro word hword
      rw [hsum] at hword
      cases hword
    · intro word hword
      rw [lexemes, hnumber] at hword
      cases hword
    · intro word hword
      rw [lexemes, hif] at hword
      cases hword
      decide
    · intro word hword
      rw [lexemes, hlimits] at hword
      cases hword
      decide
    · intro word hword
      rw [hlist] at hword
      cases hword
  have hbody := body_fractionsInput .default h hmark
  rw [hinput] at hbody
  refine ⟨h, hmark, hinput, hbody.trans ?_⟩
  decide +kernel

end FormulaMarkup
