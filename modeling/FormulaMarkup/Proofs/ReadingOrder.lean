import FormulaMarkup.Proofs.Content

/-!
# The markup keeps the reading order

Only two things change the order of what a formula says: a function whose arguments change places,
and a base with scripts of both kinds. In all other formulas identifiers, numbers and texts are
shown in the order of the input.
-/

namespace FormulaMarkup

/-! ## What is read out -/

/-- The leaf of an identifier, a number or a text. -/
def Leaf.isContent (leaf : Leaf) : Bool := leaf.1 ∈ [.mi, .mn, .mtext]

def contentTexts (s : List Leaf) : List String := (s.filter Leaf.isContent).map (·.2)

@[simp] theorem contentTexts_append (s t : List Leaf) :
    contentTexts (s ++ t) = contentTexts s ++ contentTexts t := by
  simp [contentTexts]

theorem Covers.contentTexts_eq {s t : List Leaf} (h : Covers s t) :
    contentTexts t = contentTexts s := by
  rw [contentTexts, h.filter_eq, contentTexts]
  intro leaf hleaf helement
  simp [Leaf.isContent, helement] at hleaf

/-- The texts of a tree that are read out, in the order of the document. -/
def Node.contentTexts (root : Node) : List String := FormulaMarkup.contentTexts root.leaves

/-- Only identifiers are words that are read out. -/
theorem Word.contentTexts_leaves {word : Word}
    (h : word.role = .identifier → word.symbol.element ≠ .mi) : contentTexts word.leaves = [] := by
  unfold Word.leaves
  split
  · next role =>
    have hmn : word.symbol.element ≠ .mn :=
      Lexeme.element_ne_of_identifier (by decide) (by decide) role
    have hmtext : word.symbol.element ≠ .mtext :=
      Lexeme.element_ne_of_identifier (by decide) (by decide) role
    simp [FormulaMarkup.contentTexts, Leaf.isContent, h role, hmn, hmtext]
  · split <;> rfl
  all_goals rfl

theorem Word.contentTexts_leaves_of_ne {word : Word} (h : word.role ≠ .identifier) :
    contentTexts word.leaves = [] :=
  contentTexts_leaves fun role => absurd role h

namespace Lexeme

/-- What a lexeme says: a number without its sign, a text, or an identifier. -/
def content? (x : Lexeme) : Option String := x.number? <|> x.text? <|> x.identifier?

/-- The texts that lexemes say. -/
def contentTexts (s : List Lexeme) : List String := FormulaMarkup.contentTexts (leavesOfList s)

@[simp] theorem contentTexts_nil : contentTexts [] = [] := rfl

@[simp] theorem contentTexts_cons (x : Lexeme) (s : List Lexeme) :
    contentTexts (x :: s) = FormulaMarkup.contentTexts x.leaves ++ contentTexts s := by
  simp [contentTexts]

@[simp] theorem contentTexts_append (s t : List Lexeme) :
    contentTexts (s ++ t) = contentTexts s ++ contentTexts t := by
  simp [contentTexts]

theorem contentTexts_leaves {x : Lexeme} (h : ∀ n, x = .number n → ∀ c ∈ n.digits.toList, c ≠ '-') :
    FormulaMarkup.contentTexts x.leaves = x.content?.toList := by
  cases x with
  | number n =>
    have hnumber : (number n).content? = some (withoutSign n.raw) := rfl
    rw [hnumber, withoutSign_raw (h n rfl)]
    rfl
  | text body => rfl
  | character c =>
    rcases kind_character c with h | h <;>
      simp [content?, number?, text?, identifier?, symbol?, raw, h, FormulaMarkup.contentTexts,
        Leaf.isContent]
  | symbol word =>
    have hcontent : (symbol word).content? = (symbol word).identifier? := by
      rcases kind_symbol word with h | h <;> simp [content?, number?, text?, h]
    rw [hcontent]
    by_cases h : word.symbol.element = .mi
    · have role := word.role_of_element_mi h
      simp [identifier?, symbol?, Word.leaves, role, h, FormulaMarkup.contentTexts, Leaf.isContent]
    · have hidentifier : (symbol word).identifier? = none := by simp [identifier?, symbol?, h]
      rw [hidentifier, leaves_symbol, Word.contentTexts_leaves fun _ => h]
      rfl

/-- Lexemes say what can be read off each of them. -/
theorem contentTexts_eq_filterMap {s : List Lexeme}
    (h : ∀ n, .number n ∈ s → ∀ c ∈ n.digits.toList, c ≠ '-') :
    contentTexts s = s.filterMap content? := by
  induction s with
  | nil => rfl
  | cons x s ih =>
    have hx : FormulaMarkup.contentTexts x.leaves = x.content?.toList := by
      refine contentTexts_leaves ?_
      rintro n rfl
      exact h n List.mem_cons_self
    rw [contentTexts_cons, hx, ih fun n hn => h n (List.mem_cons_of_mem _ hn), List.filterMap_cons]
    cases x.content? <;> rfl

end Lexeme

/-! ## Formulas in which nothing changes places -/

/-- No function swaps its arguments, and only one of the two marks of scripts occurs. -/
structure Sequential (s : List Lexeme) : Prop where
  noSwap : ∀ x ∈ s, x.role? ≠ some (.binary .swap)
  oneMarker : ¬(.symbol Marker.sub.word ∈ s ∧ .symbol Marker.sup.word ∈ s)

theorem Sequential.mono {s t : List Lexeme} (h : Sequential t) (hs : s ⊆ t) : Sequential s where
  noSwap x hx := h.noSwap x (hs hx)
  oneMarker hboth := h.oneMarker ⟨hs hboth.1, hs hboth.2⟩

/-- A chain of scripts of one kind has no two scripts on one level. -/
theorem ScriptLevel.arrange_of_forall_eq {α : Type} {chain : List (Marker × α)} {marker : Marker}
    (h : ∀ script ∈ chain, script.1 = marker) : arrange chain = chain := by
  fun_induction arrange chain with
  | case1 => rfl
  | case2 => rfl
  | case3 a b chain =>
    have hsub := h _ List.mem_cons_self
    have hsup := h _ (List.mem_cons_of_mem _ List.mem_cons_self)
    cases hsub.trans hsup.symm
  | case4 a b chain =>
    have hsup := h _ List.mem_cons_self
    have hsub := h _ (List.mem_cons_of_mem _ List.mem_cons_self)
    cases hsup.trans hsub.symm
  | case5 script next chain _ _ ih => rw [ih fun s hs => h s (List.mem_cons_of_mem _ hs)]

theorem Scripts.marker_mem_yield : (scripts : Scripts) →
    ∀ script ∈ scripts.shownEach, .symbol script.1.word ∈ scripts.yield
  | .done _, script, h => absurd h List.not_mem_nil
  | .cons marker operand more, script, h => by
    rw [Scripts.yield]
    rcases List.mem_cons.1 h with rfl | h
    · exact List.mem_cons_self
    · exact List.mem_cons_of_mem _ (List.mem_append_right _ (marker_mem_yield more script h))

theorem Sequential.arranged_eq {scripts : Scripts} (h : Sequential scripts.yield) :
    Scripts.arranged scripts.shownEach =
      scripts.shownEach.flatMap fun script => .symbol script.1.word :: script.2 := by
  have hmarker : ∃ marker, ∀ script ∈ scripts.shownEach, script.1 = marker := by
    by_cases hsub : .symbol Marker.sub.word ∈ scripts.yield
    · refine ⟨.sub, fun ⟨marker, s⟩ hscript => ?_⟩
      cases marker with
      | sub => rfl
      | sup => exact absurd ⟨hsub, scripts.marker_mem_yield _ hscript⟩ h.oneMarker
    · refine ⟨.sup, fun ⟨marker, s⟩ hscript => ?_⟩
      cases marker with
      | sub => exact absurd (scripts.marker_mem_yield _ hscript) hsub
      | sup => rfl
  obtain ⟨marker, hmarker⟩ := hmarker
  rw [Scripts.arranged, ScriptLevel.arrange_of_forall_eq hmarker]

/-! ## Reading order -/

/-- An accent moves behind its argument, but it is not read out. -/
theorem Word.contentTexts_unaryShown {word : Word} {kind : UnaryKind}
    (role : word.role = .unary kind) (s : List Lexeme) :
    Lexeme.contentTexts (word.unaryShown kind s) = Lexeme.contentTexts s := by
  have hword : FormulaMarkup.contentTexts word.leaves = [] :=
    Word.contentTexts_leaves_of_ne (by rw [role]; nofun)
  cases kind <;> simp [Word.unaryShown, hword]

mutual

theorem Operand.contentTexts_shown : (operand : Operand) → Sequential operand.yield →
    Lexeme.contentTexts operand.shown = Lexeme.contentTexts operand.yield
  | .number _, _ | .text _, _ | .character _, _ | .leaf _ _, _ | .keyword _ _, _
  | .strayClosing _ _, _ | .beyondLimit _ _, _ | .loneBar _ _, _ | .noArgument _ _, _
  | .verbatim _ _ _, _ => rfl
  | .group opening _ body closing, h => by
    have hbody := Term.contentTexts_shownOfList body (h.mono (by simp [Operand.yield]))
    simp [Operand.shown, Operand.yield, hbody]
  | .bars opening _ body closing, h => by
    have hbody := Term.contentTexts_shownOfList body (h.mono (by simp [Operand.yield]))
    simp [Operand.shown, Operand.yield, hbody]
  | .function name _ scripts argument, h => by
    have hscripts := Scripts.contentTexts_shown scripts (h.mono (by simp [Operand.yield]))
    have hargument := Operand.contentTexts_shown argument (h.mono (by simp [Operand.yield]))
    simp [Operand.shown, Operand.yield, hscripts, hargument]
  | .functionAlone name _ scripts, h => by
    have hscripts := Scripts.contentTexts_shown scripts (h.mono (by simp [Operand.yield]))
    simp [Operand.shown, Operand.yield, hscripts]
  | .unary word kind role argument, h => by
    have hargument := Operand.contentTexts_shown argument (h.mono (by simp [Operand.yield]))
    have hword : FormulaMarkup.contentTexts word.leaves = [] :=
      Word.contentTexts_leaves_of_ne (by rw [role]; nofun)
    rw [Operand.shown, Operand.yield, Word.contentTexts_unaryShown role, hargument,
      Lexeme.contentTexts_cons, Lexeme.leaves_symbol, hword, List.nil_append]
  | .noSecond word _ _ first, h => by
    have hfirst := Operand.contentTexts_shown first (h.mono (by simp [Operand.yield]))
    simp [Operand.shown, Operand.yield, hfirst]
  | .binary word .swap role first second, h => by
    refine absurd ?_ (h.noSwap (.symbol word) List.mem_cons_self)
    rw [Lexeme.role?_symbol, role]
  | .binary word .preserve _ first second, h => by
    have hfirst := Operand.contentTexts_shown first (h.mono (by simp [Operand.yield]))
    have hsecond := Operand.contentTexts_shown second (h.mono (by simp [Operand.yield]))
    simp [Operand.shown, Operand.yield, Word.binaryShown, hfirst, hsecond]

theorem Scripts.contentTexts_shown : (scripts : Scripts) → Sequential scripts.yield →
    Lexeme.contentTexts (Scripts.arranged scripts.shownEach) = Lexeme.contentTexts scripts.yield
  | .done _, _ => rfl
  | .cons marker operand more, h => by
    have hmore : Sequential more.yield := h.mono (by simp [Scripts.yield])
    have hoperand := Operand.contentTexts_shown operand (h.mono (by simp [Scripts.yield]))
    rw [h.arranged_eq, Scripts.shownEach, List.flatMap_cons, ← hmore.arranged_eq]
    simp [Scripts.yield, hoperand, Scripts.contentTexts_shown more hmore]

theorem Term.contentTexts_shown : (term : Term) → Sequential term.yield →
    Lexeme.contentTexts term.shown = Lexeme.contentTexts term.yield
  | .scripted base scripts, h | .noDenominator base scripts, h => by
    have hbase := Operand.contentTexts_shown base (h.mono (by simp [Term.yield]))
    have hscripts := Scripts.contentTexts_shown scripts (h.mono (by simp [Term.yield]))
    simp [Term.shown, Term.yield, hbase, hscripts]
  | .fraction base scripts base' scripts', h => by
    have hbase := Operand.contentTexts_shown base (h.mono (by simp [Term.yield]))
    have hscripts := Scripts.contentTexts_shown scripts (h.mono (by simp [Term.yield]))
    have hbase' := Operand.contentTexts_shown base'
      (h.mono fun x hx => by simp [Term.yield, hx])
    have hscripts' := Scripts.contentTexts_shown scripts'
      (h.mono fun x hx => by simp [Term.yield, hx])
    simp [Term.shown, Term.yield, hbase, hscripts, hbase', hscripts']

theorem Term.contentTexts_shownOfList : (terms : List Term) →
    Sequential (Term.yieldOfList terms) →
    Lexeme.contentTexts (Term.shownOfList terms) = Lexeme.contentTexts (Term.yieldOfList terms)
  | [], _ => rfl
  | term :: terms, h => by
    have hterm := Term.contentTexts_shown term (h.mono (by simp [Term.yieldOfList]))
    have hterms := Term.contentTexts_shownOfList terms (h.mono (by simp [Term.yieldOfList]))
    simp [Term.shownOfList, Term.yieldOfList, hterm, hterms]

end

/-- What the input says is read out in the order of the input, unless something changes places. -/
theorem contentTexts_compile (settings : Settings) (input : String)
    (noSwap : ∀ x ∈ lexemes input, x.role? ≠ some (.binary .swap))
    (oneMarker : ¬(.symbol Marker.sub.word ∈ lexemes input ∧
      .symbol Marker.sup.word ∈ lexemes input)) :
    (compile settings input).contentTexts = (lexemes input).filterMap Lexeme.content? := by
  have hyield : Term.yieldOfList (Formula.ofInput input) = lexemes input :=
    Formula.yieldOfList_parse _
  have hsequential : Sequential (Term.yieldOfList (Formula.ofInput input)) := by
    rw [hyield]
    exact ⟨noSwap, oneMarker⟩
  calc (compile settings input).contentTexts
      = Lexeme.contentTexts (Term.shownOfList (Formula.ofInput input)) := by
        rw [Node.contentTexts, leaves_compile, (Formula.nodes_cover _).contentTexts_eq]
        rfl
    _ = Lexeme.contentTexts (lexemes input) := by
        rw [Term.contentTexts_shownOfList _ hsequential, hyield]
    _ = (lexemes input).filterMap Lexeme.content? :=
        Lexeme.contentTexts_eq_filterMap fun n hn => digits_of_mem_lexemes hn

/-- A script on the name of a function and an accent, both in front of what they belong to. -/
theorem contentTexts_compile_accent :
    (∀ x ∈ lexemes "hat x / sin^-2 \"y\"", x.role? ≠ some (.binary .swap)) ∧
      ¬(.symbol Marker.sub.word ∈ lexemes "hat x / sin^-2 \"y\"" ∧
        .symbol Marker.sup.word ∈ lexemes "hat x / sin^-2 \"y\"") ∧
      (compile .default "hat x / sin^-2 \"y\"").contentTexts = ["x", "2", "y"] := by
  obtain ⟨noSwap, oneMarker, hcontent⟩ :
      (∀ x ∈ lexemes "hat x / sin^-2 \"y\"", x.role? ≠ some (.binary .swap)) ∧
        ¬(.symbol Marker.sub.word ∈ lexemes "hat x / sin^-2 \"y\"" ∧
          .symbol Marker.sup.word ∈ lexemes "hat x / sin^-2 \"y\"") ∧
        (lexemes "hat x / sin^-2 \"y\"").filterMap Lexeme.content? = ["x", "2", "y"] := by
    decide +kernel
  exact ⟨noSwap, oneMarker, (contentTexts_compile .default _ noSwap oneMarker).trans hcontent⟩

end FormulaMarkup
