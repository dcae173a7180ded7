import FormulaMarkup.Proofs.Bracketed
import FormulaMarkup.Proofs.Grammar.Commas
import FormulaMarkup.Proofs.Table.Recognition
import FormulaMarkup.Proofs.Token.Joined

/-!
# Cells between commas

A formula without fault that has no comma of its own is a cell of a row, and nothing of it shows in
the shape of the table but whether it begins with a keyword.
-/

namespace FormulaMarkup

/-! ## Rows of fragments -/

section

variable {comma : Fragment} {cells : List (List Fragment)} {content : List Fragment}
  {rows : List TableRow}

theorem TableRow.cellsOf_intercalate (hcomma : comma.isComma = true) (hne : cells ≠ [])
    (h : ∀ cell ∈ cells, ∀ fragment ∈ cell, fragment.isComma = false) :
    cellsOf ([comma].intercalate cells) = cells := by
  rw [cellsOf_eq_splitOnP]
  induction cells with
  | nil => exact absurd rfl hne
  | cons cell cells ih =>
    obtain ⟨hcell, h⟩ := List.forall_mem_cons.1 h
    cases cells with
    | nil => rw [List.intercalate_singleton, List.splitOnP_eq_singleton hcell]
    | cons next cells =>
      rw [List.intercalate_cons_cons, List.append_assoc, List.singleton_append,
        List.splitOnP_append_cons_of_forall_mem hcell comma hcomma, ih (List.cons_ne_nil _ _) h]

theorem Table.rows?_intercalate (hcomma : comma.isComma = true) (hne : rows ≠ []) :
    rows? ([comma].intercalate (rows.map fun row => [row.group])) = some rows := by
  induction rows with
  | nil => exact absurd rfl hne
  | cons row rows ih =>
    cases rows with
    | nil => rfl
    | cons next rows =>
      rw [List.map_cons, List.map_cons, List.intercalate_cons_cons]
      exact rows?_cons_cons.2 ⟨hcomma, row, _, rfl, ih (List.cons_ne_nil _ _), rfl⟩

/-- Two or more rows that fit each other are a table. -/
theorem Table.resolve_rows (hcomma : comma.isComma = true) (hlength : 2 ≤ rows.length)
    (hfits : ∀ first ∈ rows, ∀ row ∈ rows, first.fits row = true) :
    resolve ([comma].intercalate (rows.map fun row => [row.group])) = [.node (node rows)] := by
  match rows with
  | [] => cases hlength
  | [row] => exact absurd hlength (by simp)
  | first :: second :: more =>
    have hall : (second :: more).all first.fits = true := List.all_eq_true.2 fun row hrow =>
      hfits first List.mem_cons_self row (List.mem_cons_of_mem _ hrow)
    have htable := ofContent?_eq_some_iff.2
      ⟨first, second, more, rows?_intercalate hcomma (List.cons_ne_nil _ _), hall, rfl⟩
    rw [resolve, htable]

/-- The cells of rows are single groups. -/
theorem Table.cellsOf_of_rows? (h : rows? content = some rows) :
    TableRow.cellsOf content = rows.map fun row => [row.group] := by
  fun_induction rows? content generalizing rows with
  | case1 => cases h
  | case2 fragment =>
    obtain ⟨row, hrow, rfl⟩ := Option.map_eq_some_iff.1 h
    obtain rfl := TableRow.eq_group_of_ofFragment? hrow
    rfl
  | case3 fragment comma fragments hcomma row more hmore hrow ih =>
    cases h
    obtain rfl := TableRow.eq_group_of_ofFragment? hrow
    have hcells : TableRow.cellsOf (row.group :: comma :: fragments) =
        [row.group] :: TableRow.cellsOf fragments := by
      simp [TableRow.cellsOf, TableRow.isComma_group, hcomma]
    rw [hcells, ih hmore]
    rfl
  | case4 => cases h
  | case5 => cases h

/-- A row of cells is no table itself, if one of them is not a single group. -/
theorem Table.resolve_intercalate (hcomma : comma.isComma = true) (hne : cells ≠ [])
    (h : ∀ cell ∈ cells, ∀ fragment ∈ cell, fragment.isComma = false)
    (hcell : ∃ cell ∈ cells, ∀ row : TableRow, cell ≠ [row.group]) :
    resolve ([comma].intercalate cells) = [comma].intercalate cells := by
  obtain ⟨cell, hmem, hcell⟩ := hcell
  unfold resolve
  split
  · next table htable =>
    obtain ⟨first, second, more, hrows, -⟩ := ofContent?_eq_some_iff.1 htable
    have hcells := cellsOf_of_rows? hrows
    rw [TableRow.cellsOf_intercalate hcomma hne h] at hcells
    rw [hcells] at hmem
    obtain ⟨row, -, rfl⟩ := List.mem_map.1 hmem
    exact absurd rfl (hcell row)
  · rfl

end

/-! ## Fragments that are no nodes -/

/-- Only an operand without scripts and fraction bar is something else than a node. -/
theorem Term.exists_operand {term : Term} (hn : term.notices = [])
    (h : ∀ n, term.fragment ≠ .node n) : ∃ base, term = .scripted base (.done .complete) := by
  cases term with
  | scripted base scripts =>
    cases scripts with
    | done reason =>
      cases reason with
      | complete => exact ⟨base, rfl⟩
      | _ => cases (List.append_eq_nil_iff.1 hn).2
    | cons marker operand more => exact absurd rfl (h _)
  | noDenominator base scripts =>
    cases (List.append_eq_nil_iff.1 (List.append_eq_nil_iff.1 hn).2).2
  | fraction base scripts base' scripts' => exact absurd rfl (h _)

theorem Operand.eq_group {operand : Operand} (hn : operand.notices = []) {row : TableRow}
    (h : operand.fragment = row.group) :
    ∃ opening role body closing, operand = .group opening role body (some closing) := by
  have hrow : TableRow.ofFragment? operand.fragment = some row := by rw [h]; rfl
  cases operand with
  | group opening role body closing =>
    cases closing with
    | none => cases hrow
    | some closing => exact ⟨opening, role, body, closing, rfl⟩
  | bars opening role body closing => cases closing <;> cases hrow
  | number n =>
    unfold Operand.fragment at h
    split at h <;> cases h
  | beyondLimit => cases hn
  | functionAlone => cases (List.append_eq_nil_iff.1 hn).2
  | _ => cases h

theorem Operand.eq_keyword {operand : Operand} (hn : operand.notices = []) {symbol : Symbol}
    (h : operand.fragment = .keyword symbol) : ∃ word role, operand = .keyword word role := by
  cases operand with
  | keyword word role => exact ⟨word, role, rfl⟩
  | group opening role body closing => cases closing <;> cases h
  | bars opening role body closing => cases closing <;> cases h
  | number n =>
    unfold Operand.fragment at h
    split at h <;> cases h
  | beyondLimit => cases hn
  | functionAlone => cases (List.append_eq_nil_iff.1 hn).2
  | _ => cases h

/-! ## Cells -/

open Formula

/-- Without fault the brackets between the two of a group are matched. -/
theorem Formula.IsGroup.balanced_content {s : List Lexeme} {opening : WordOf .openBracket}
    {content : List Term} {closing : WordOf .closeBracket} (h : IsGroup s opening content closing)
    (hn : Term.noticesOfList (parse s) = []) : Balanced (Term.yieldOfList content) := by
  have hcontent : Term.noticesOfList content = [] := by
    rw [h.parse_self] at hn
    exact (List.append_eq_nil_iff.1 (List.append_eq_nil_iff.1 (List.append_eq_nil_iff.1 hn).1).1).1
  have hparse : parse (Term.yieldOfList content) = content := by
    cases h with
    | group opening role reads close =>
      cases close
      exact reads.parse_content (by simp [WithinLimits, hcontent])
  exact balanced_of_notices_eq_nil (by rw [hparse]; exact hcontent)

/-- A formula without fault that can stand between commas. -/
structure IsCell (a : String) : Prop where
  faultless : notices a = []
  noBars : ∀ x ∈ lexemes a, x.role? ≠ some .leftRight
  terminated : ∀ token ∈ tokenize a, token.IsTerminated
  commas : ∀ k, (lexemes a)[k]? = some (.symbol .comma) →
    (Brackets.matched (lexemes a)).Encloses k
  separate : Separate (lexemes a)

/-- The text is an opening bracket, the one that closes it, and what stands between the two. -/
def IsBracketGroup (a : String) : Prop :=
  ∃ (opening : WordOf .openBracket) (content : List Lexeme) (closing : WordOf .closeBracket),
    lexemes a = .symbol opening.1 :: (content ++ [.symbol closing.1]) ∧ Balanced content

/-- The text begins with a keyword that neither a script nor a fraction bar follows. -/
def BeginsWithKeyword (a : String) : Prop :=
  ∃ word s, lexemes a = .symbol word :: s ∧ word.role = .wordOperator ∧ Separate s

namespace IsCell

variable {a : String}

/-- Texts without verbatim text are told to be cells by their lexemes. -/
theorem of_lexemes {s : List Lexeme} (ha : lexemes a = s)
    (hn : Term.noticesOfList (parse s) = [])
    (hplain : ∀ x ∈ s, x.role? ≠ some .leftRight ∧ x.kind ≠ .text)
    (hcommas : ∀ k < s.length, s[k]? = some (.symbol .comma) → (Brackets.matched s).Encloses k)
    (hseparate : Separate s) : IsCell a := by
  subst ha
  refine ⟨hn, fun x hx => (hplain x hx).1, fun token htoken body hbody => ?_, fun k hk => ?_,
    hseparate⟩
  · have hkind := (hplain token.lexeme (List.mem_map_of_mem htoken)).2
    rw [hbody] at hkind
    exact absurd rfl hkind
  · exact hcommas k (List.getElem?_eq_some_iff.1 hk).1 hk

theorem isClosed (h : IsCell a) : IsClosed a where
  terminated := h.terminated
  settled := by
    have hsettled := Term.settledList _ h.faultless
    rw [ofInput, yieldOfList_parse] at hsettled
    exact textAnnounced_contextAfter hsettled

theorem reads (h : IsCell a) : ReadsBefore maxDepth true (lexemes a) (ofInput a) :=
  readsBefore_parse h.faultless h.noBars

theorem isComma_eq_false (h : IsCell a) :
    ∀ fragment ∈ Term.fragments (ofInput a), fragment.isComma = false := by
  have hshallow : Shallow (Term.noticesOfList (parse (lexemes a))) := by
    have hnone : Term.noticesOfList (parse (lexemes a)) = [] := h.faultless
    simp [Shallow, hnone]
  exact Formula.isComma_eq_false hshallow fun k hk => .inl (h.commas k hk)

/-- A cell whose markup is a single group is a bracket group. -/
theorem ne_group (h : IsCell a) (hgroup : ¬ IsBracketGroup a) (row : TableRow) :
    Term.fragments (ofInput a) ≠ [row.group] := by
  intro hrow
  have hn : Term.noticesOfList (ofInput a) = [] := h.faultless
  have hsole : ∃ o c, soleGroup? (ofInput a) = some (o, c) := by
    generalize ofInput a = formula at hn hrow
    match formula with
    | [] => cases hrow
    | [term] =>
      have hterm := (List.append_eq_nil_iff.1 hn).1
      have hfragment : term.fragment = row.group := (List.cons.inj hrow).1
      obtain ⟨base, rfl⟩ := Term.exists_operand hterm (by rw [hfragment]; nofun)
      obtain ⟨opening, role, body, closing, rfl⟩ :=
        Operand.eq_group (List.append_eq_nil_iff.1 hterm).1 hfragment
      exact ⟨_, _, rfl⟩
    | first :: second :: terms => cases (List.cons.inj hrow).2
  obtain ⟨o, c, hsole⟩ := hsole
  obtain ⟨opening, content, closing, -, -, hreads⟩ := exists_isGroup hsole
  exact hgroup ⟨opening, _, closing, hreads.eq, hreads.balanced_content h.faultless⟩

/-- The first fragment of a cell tells whether a keyword stands there alone. -/
theorem keyword_iff (h : IsCell a) :
    (∃ symbol more, Term.fragments (ofInput a) = .keyword symbol :: more) ↔
      BeginsWithKeyword a := by
  constructor
  · rintro ⟨symbol, more, hfragments⟩
    have hn : Term.noticesOfList (ofInput a) = [] := h.faultless
    have hreads : ReadsBody maxDepth false false (lexemes a) (ofInput a) [] := parse_reads _
    unfold BeginsWithKeyword
    generalize ofInput a = formula, lexemes a = s at hn hreads hfragments ⊢
    cases hreads with
    | nil => cases hfragments
    | cons goes first rest =>
      have hterm := (List.append_eq_nil_iff.1 hn).1
      have hfragment := (List.cons.inj hfragments).1
      obtain ⟨base, rfl⟩ := Term.exists_operand hterm (by rw [hfragment]; nofun)
      obtain ⟨word, role, rfl⟩ := Operand.eq_keyword (List.append_eq_nil_iff.1 hterm).1 hfragment
      cases first with
      | scripted base scripts next =>
        cases base with
        | keyword =>
          cases scripts with
          | complete nomark =>
            refine ⟨word, _, rfl, role, fun x hx => ⟨nomark x hx, ?_⟩⟩
            rintro rfl
            exact next hx
  · rintro ⟨word, s, heq, role, hseparate⟩
    have hterm : ReadsTerm maxDepth false (.symbol word :: s)
        (.scripted (.keyword word role) (.done .complete)) s :=
      .scripted (.keyword word role) (.complete fun x hx => (hseparate x hx).1)
        fun hslash => (hseparate _ hslash).2 rfl
    have hparse : parse (.symbol word :: s) = _ :: parse s :=
      parse_eq_iff.2 (.cons rfl hterm (parse_reads s))
    rw [ofInput, heq, hparse]
    exact ⟨word.symbol, Term.fragments (parse s), rfl⟩

end IsCell

end FormulaMarkup
