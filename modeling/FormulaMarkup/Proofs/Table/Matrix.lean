import FormulaMarkup.Proofs.Table.Cells

/-!
# Matrices

Rows of cells in brackets, with commas between the cells and between the rows, are a table with the
markup that the cells have on their own.
-/

namespace FormulaMarkup

open Formula

/-! ## Parts between commas -/

/-- Parts in brackets with commas between them, and a blank between any two words or parts. -/
def bracketedInput (opening closing : Word) (parts : List String) : String :=
  " ".intercalate (opening.spelling :: (parts.intersperse "," ++ [closing.spelling]))

def bracketedLexemes (opening closing : Word) (parts : List (List Lexeme)) : List Lexeme :=
  .symbol opening :: ([.symbol .comma].intercalate parts ++ [.symbol closing])

section

variable {closing : WordOf .closeBracket} {parts : List String}

theorem lexemes_commas (h : ∀ part ∈ parts, IsClosed part) :
    lexemes (" ".intercalate (parts.intersperse "," ++ [closing.1.spelling])) =
      [.symbol .comma].intercalate (parts.map lexemes) ++ [.symbol closing.1] := by
  induction parts with
  | nil => simp [lexemes_spelling]
  | cons part parts ih =>
    obtain ⟨hpart, h⟩ := List.forall_mem_cons.1 h
    cases parts with
    | nil =>
      have hnext : ∀ n, (lexemes closing.1.spelling).head? = some (.number n) →
          n.negative = false := by
        rw [lexemes_spelling]
        nofun
      have hinput : " ".intercalate ([part].intersperse "," ++ [closing.1.spelling]) =
          part ++ " " ++ closing.1.spelling := by simp
      rw [hinput, hpart.lexemes_append hnext, lexemes_spelling]
      simp
    | cons next parts =>
      have hinput : " ".intercalate
          ((part :: next :: parts).intersperse "," ++ [closing.1.spelling]) =
          part ++ " " ++ (Word.comma.spelling ++ " " ++
            " ".intercalate ((next :: parts).intersperse "," ++ [closing.1.spelling])) := by
        cases parts <;> simp [List.intersperse_cons_cons] <;> rfl
      rw [hinput, hpart.lexemes_append_word (by decide) (by decide), ih h]
      simp

theorem lexemes_bracketedInput (opening : WordOf .openBracket) (h : ∀ part ∈ parts, IsClosed part) :
    lexemes (bracketedInput opening.1 closing.1 parts) =
      bracketedLexemes opening.1 closing.1 (parts.map lexemes) := by
  have htext : (Lexeme.symbol opening.1).announcesText = false := by
    simp [Lexeme.announcesText, opening.2]
  have hoperand : (Lexeme.symbol opening.1).isOperand = false := by
    simp [Lexeme.isOperand, opening.2]
  have hinput : bracketedInput opening.1 closing.1 parts = opening.1.spelling ++ " " ++
      " ".intercalate (parts.intersperse "," ++ [closing.1.spelling]) :=
    String.intercalate_cons_of_ne_nil (by simp)
  rw [hinput, lexemes_word_append htext hoperand, lexemes_commas h]
  rfl

theorem isClosed_bracketedInput (opening : WordOf .openBracket)
    (h : ∀ part ∈ parts, IsClosed part) :
    IsClosed (bracketedInput opening.1 closing.1 parts) := by
  have hlast : lexemes (bracketedInput opening.1 closing.1 parts) =
      (.symbol opening.1 :: [.symbol .comma].intercalate (parts.map lexemes)) ++
        [.symbol closing.1] := lexemes_bracketedInput opening h
  exact isClosed_of_last hlast (by simp) (by simp [Lexeme.announcesText, closing.2])

end

/-! ## Rows of cells -/

theorem Term.fragments_intercalate (parts : List (List Term)) :
    Term.fragments ([commaTerm].intercalate parts) =
      [commaTerm.fragment].intercalate (parts.map Term.fragments) := by
  induction parts with
  | nil => rfl
  | cons part parts ih =>
    cases parts with
    | nil => simp
    | cons next parts =>
      rw [List.intercalate_cons_cons, Term.fragments_append, Term.fragments_append, ih]
      simp [Term.fragments]

/-- A group with commas between its parts. -/
def bracketedTerm (opening : WordOf .openBracket) (closing : WordOf .closeBracket)
    (parts : List (List Term)) : Term :=
  .scripted (closedGroup opening ([commaTerm].intercalate parts) closing) (.done .complete)

theorem Formula.ReadsBefore.bracketed {room : Nat} {inGroup : Bool}
    {parts : List (List Lexeme × List Term)}
    (h : ∀ part ∈ parts, ReadsBefore room true part.1 part.2 ∧ Separate part.1)
    (opening : WordOf .openBracket) (closing : WordOf .closeBracket) :
    ReadsBefore (room + 1) inGroup
      (bracketedLexemes opening.1 closing.1 (parts.map Prod.fst))
      [bracketedTerm opening closing (parts.map Prod.snd)] :=
  (ReadsBefore.join h).1.group opening closing

/-- Rows of cells. A row of several groups alone would be a table itself, so another cell is
demanded of it. -/
structure IsMatrix (rows : List (List String)) (columns : Nat) : Prop where
  height : 2 ≤ rows.length
  nonempty : 1 ≤ columns
  width : ∀ row ∈ rows, row.length = columns
  cells : ∀ row ∈ rows, ∀ cell ∈ row, IsCell cell
  distinct : columns = 1 ∨ ∀ row ∈ rows, ∃ cell ∈ row, ¬ IsBracketGroup cell

section

variable (opening rowOpening : WordOf .openBracket) (closing rowClosing : WordOf .closeBracket)

/-- Rows in brackets, in brackets again. -/
def matrixInput (rows : List (List String)) : String :=
  bracketedInput opening.1 closing.1 (rows.map (bracketedInput rowOpening.1 rowClosing.1))

def rowTerm (row : List String) : Term := bracketedTerm rowOpening rowClosing (row.map ofInput)

def tableRow (row : List String) : TableRow where
  opening := rowOpening.1.symbol
  closing := rowClosing.1.symbol
  content := [commaTerm.fragment].intercalate (row.map fun cell => Term.fragments (ofInput cell))

variable {opening rowOpening closing rowClosing} {rows : List (List String)} {row : List String}
  {columns : Nat}

theorem lexemes_matrixInput (h : ∀ row ∈ rows, ∀ cell ∈ row, IsCell cell) :
    lexemes (matrixInput opening rowOpening closing rowClosing rows) =
      bracketedLexemes opening.1 closing.1
        (rows.map fun row => bracketedLexemes rowOpening.1 rowClosing.1 (row.map lexemes)) := by
  have hclosed : ∀ row ∈ rows, ∀ cell ∈ row, IsClosed cell :=
    fun row hrow cell hcell => (h row hrow cell hcell).isClosed
  have hrows : ∀ part ∈ rows.map (bracketedInput rowOpening.1 rowClosing.1), IsClosed part := by
    intro part hpart
    obtain ⟨row, hrow, rfl⟩ := List.mem_map.1 hpart
    exact isClosed_bracketedInput rowOpening (hclosed row hrow)
  rw [matrixInput, lexemes_bracketedInput opening hrows, List.map_map]
  refine congrArg _ (List.map_congr_left fun row hrow => ?_)
  exact lexemes_bracketedInput rowOpening (hclosed row hrow)

theorem readsBefore_row (h : ∀ cell ∈ row, IsCell cell) :
    ReadsBefore (maxDepth + 1) true (bracketedLexemes rowOpening.1 rowClosing.1 (row.map lexemes))
      [rowTerm rowOpening rowClosing row] := by
  have hparts : ∀ part ∈ row.map fun cell => (lexemes cell, ofInput cell),
      ReadsBefore maxDepth true part.1 part.2 ∧ Separate part.1 := by
    intro part hpart
    obtain ⟨cell, hcell, rfl⟩ := List.mem_map.1 hpart
    exact ⟨(h cell hcell).reads, (h cell hcell).separate⟩
  have hrow : ReadsBefore (maxDepth + 1) true _ _ := .bracketed hparts rowOpening rowClosing
  rwa [List.map_map, List.map_map] at hrow

theorem ofInput_matrixInput (h : ∀ row ∈ rows, ∀ cell ∈ row, IsCell cell)
    (hn : WithinLimits (notices (matrixInput opening rowOpening closing rowClosing rows))) :
    ofInput (matrixInput opening rowOpening closing rowClosing rows) =
      [bracketedTerm opening closing (rows.map fun row => [rowTerm rowOpening rowClosing row])] := by
  rw [notices, ofInput, lexemes_matrixInput h] at hn
  rw [ofInput, lexemes_matrixInput h]
  have hparts : ∀ part ∈ rows.map fun row =>
      (bracketedLexemes rowOpening.1 rowClosing.1 (row.map lexemes),
        [rowTerm rowOpening rowClosing row]),
      ReadsBefore (maxDepth + 1) true part.1 part.2 ∧ Separate part.1 := by
    intro part hpart
    obtain ⟨row, hrow, rfl⟩ := List.mem_map.1 hpart
    exact ⟨readsBefore_row (h row hrow), separate_opening rowOpening _⟩
  have hrows : ReadsBefore (maxDepth + 2) false _ _ := .bracketed hparts opening closing
  rw [List.map_map, List.map_map] at hrows
  exact parse_of_deeper hn hrows

theorem isComma_commaTerm : commaTerm.fragment.isComma = true := by decide +kernel

theorem cells_tableRow (hne : row ≠ []) (h : ∀ cell ∈ row, IsCell cell) :
    (tableRow rowOpening rowClosing row).cells =
      row.map fun cell => Term.fragments (ofInput cell) := by
  refine TableRow.cellsOf_intercalate isComma_commaTerm (mt List.map_eq_nil_iff.1 hne) ?_
  intro cell hcell
  obtain ⟨a, ha, rfl⟩ := List.mem_map.1 hcell
  exact (h a ha).isComma_eq_false

/-- A row is no table. -/
theorem resolve_tableRow (hne : row ≠ []) (h : ∀ cell ∈ row, IsCell cell)
    (hrow : row.length = 1 ∨ ∃ cell ∈ row, ¬ IsBracketGroup cell) :
    Table.resolve (tableRow rowOpening rowClosing row).content =
      (tableRow rowOpening rowClosing row).content := by
  have hcommas : ∀ cell ∈ row.map fun cell => Term.fragments (ofInput cell),
      ∀ fragment ∈ cell, fragment.isComma = false := by
    intro cell hcell
    obtain ⟨a, ha, rfl⟩ := List.mem_map.1 hcell
    exact (h a ha).isComma_eq_false
  rcases hrow with hlength | ⟨cell, hcell, hgroup⟩
  · obtain ⟨cell, rfl⟩ := List.length_eq_one_iff.1 hlength
    have hcontent : (tableRow rowOpening rowClosing [cell]).content =
        Term.fragments (ofInput cell) := by simp [tableRow]
    rw [hcontent]
    exact Table.resolve_eq_self (h cell (List.mem_singleton_self _)).isComma_eq_false
  · exact Table.resolve_intercalate isComma_commaTerm (mt List.map_eq_nil_iff.1 hne) hcommas
      ⟨_, List.mem_map_of_mem hcell, (h cell hcell).ne_group hgroup⟩

theorem fragment_rowTerm
    (h : Table.resolve (tableRow rowOpening rowClosing row).content =
      (tableRow rowOpening rowClosing row).content) :
    (rowTerm rowOpening rowClosing row).fragment = (tableRow rowOpening rowClosing row).group := by
  have hcontent : Term.fragments ([commaTerm].intercalate (row.map ofInput)) =
      (tableRow rowOpening rowClosing row).content := by
    rw [Term.fragments_intercalate, List.map_map]
    rfl
  have hgroup : (rowTerm rowOpening rowClosing row).fragment =
      .group rowOpening.1.symbol (some rowClosing.1.symbol)
        (Table.resolve (Term.fragments ([commaTerm].intercalate (row.map ofInput)))) false := rfl
  rw [hgroup, hcontent, h]
  rfl

theorem node_tableRow (settings : Settings) (hne : row ≠ []) (h : ∀ cell ∈ row, IsCell cell) :
    (tableRow rowOpening rowClosing row).node =
      .container .mtr (row.map fun cell => .container .mtd (body settings cell)) := by
  rw [TableRow.node, cells_tableRow hne h, List.map_map]
  simp only [body_eq]
  rfl

theorem isCase_tableRow (hne : row ≠ []) (h : ∀ cell ∈ row, IsCell cell) :
    Table.IsCase (tableRow rowOpening rowClosing row).content ↔
      row.length = 2 ∧ ∀ cell ∈ row[1]?, BeginsWithKeyword cell := by
  rw [Table.IsCase, ← TableRow.cellsOf_eq_splitOnP, ← TableRow.cells, cells_tableRow hne h]
  rcases row with _ | ⟨first, _ | ⟨second, _ | ⟨third, more⟩⟩⟩
  · simp
  · simp
  · have hkeyword := (h second (by simp)).keyword_iff
    simpa using hkeyword
  · simp

namespace IsMatrix

theorem ne_nil (h : IsMatrix rows columns) (hrow : row ∈ rows) : row ≠ [] := by
  rintro rfl
  have hlength := h.width [] hrow
  have hcolumns := h.nonempty
  rw [List.length_nil] at hlength
  omega

theorem resolve_row (h : IsMatrix rows columns) (hrow : row ∈ rows) :
    Table.resolve (tableRow rowOpening rowClosing row).content =
      (tableRow rowOpening rowClosing row).content := by
  refine resolve_tableRow (h.ne_nil hrow) (h.cells row hrow) ?_
  rcases h.distinct with hone | hdistinct
  · exact .inl ((h.width row hrow).trans hone)
  · exact .inr (hdistinct row hrow)

theorem length_cells (h : IsMatrix rows columns) (hrow : row ∈ rows) :
    (tableRow rowOpening rowClosing row).cells.length = columns := by
  rw [cells_tableRow (h.ne_nil hrow) (h.cells row hrow), List.length_map,
    h.width row hrow]

/-- The rows make up a table. -/
theorem contentNodes_eq (h : IsMatrix rows columns) :
    contentNodes ([commaTerm].intercalate (rows.map fun row => [rowTerm rowOpening rowClosing row]))
      = [Table.node (rows.map (tableRow rowOpening rowClosing))] := by
  have hfragments : (rows.map fun row => [rowTerm rowOpening rowClosing row]).map Term.fragments =
      (rows.map (tableRow rowOpening rowClosing)).map fun row => [row.group] := by
    rw [List.map_map, List.map_map]
    refine List.map_congr_left fun row hrow => ?_
    exact congrArg ([·])
      (fragment_rowTerm (h.resolve_row hrow))
  have hfits : ∀ first ∈ rows.map (tableRow rowOpening rowClosing),
      ∀ other ∈ rows.map (tableRow rowOpening rowClosing), first.fits other = true := by
    intro first hfirst other hother
    obtain ⟨row, hrow, rfl⟩ := List.mem_map.1 hfirst
    obtain ⟨row', hrow', rfl⟩ := List.mem_map.1 hother
    rw [TableRow.fits, h.length_cells hrow, h.length_cells hrow']
    simp [tableRow]
  rw [contentNodes, Term.fragments_intercalate, hfragments,
    Table.resolve_rows isComma_commaTerm (by simpa using h.height) hfits]
  rfl

theorem areCases_iff (h : IsMatrix rows columns) :
    Table.areCases (rows.map (tableRow rowOpening rowClosing)) = true ↔
      columns = 2 ∧ ∀ row ∈ rows, ∀ cell ∈ row[1]?, BeginsWithKeyword cell := by
  have hcase : ∀ row ∈ rows, ((decide ((tableRow rowOpening rowClosing row).cells.length = 2) &&
      (tableRow rowOpening rowClosing row).isCase) = true ↔
        columns = 2 ∧ ∀ cell ∈ row[1]?, BeginsWithKeyword cell) := by
    intro row hrow
    rw [Bool.and_eq_true, decide_eq_true_eq, Table.isCase_iff,
      isCase_tableRow (h.ne_nil hrow) (h.cells row hrow), h.width row hrow]
  rw [Table.areCases, List.all_map, List.all_eq_true]
  constructor
  · intro hall
    obtain ⟨row, hrow⟩ := List.exists_mem_of_length_pos (Nat.lt_of_lt_of_le Nat.two_pos h.height)
    exact ⟨((hcase row hrow).1 (hall row hrow)).1, fun row hrow =>
      ((hcase row hrow).1 (hall row hrow)).2⟩
  · rintro ⟨htwo, hall⟩ row hrow
    exact (hcase row hrow).2 ⟨htwo, hall row hrow⟩

end IsMatrix

/-- A matrix is a table between brackets, whose cells have the markup that they have on their own.
Cases, which are two columns with a keyword in front of each second cell, stand to the left. -/
theorem body_matrixInput (settings : Settings) (h : IsMatrix rows columns)
    (hn : WithinLimits (notices (matrixInput opening rowOpening closing rowClosing rows))) :
    let cases := columns = 2 ∧ ∀ row ∈ rows, ∀ cell ∈ row[1]?, BeginsWithKeyword cell
    ∃ attributes : Attributes,
      body settings (matrixInput opening rowOpening closing rowClosing rows) =
        [.row (opening.1.bracketLeaves ++
          [⟨.mtable, attributes, rows.map fun row => .container .mtr
            (row.map fun cell => .container .mtd (body settings cell)), none⟩] ++
          closing.1.bracketLeaves)] ∧
      (cases → attributes = Attributes.empty.insert .columnalign "left") ∧
      (¬ cases → attributes = .empty) := by
  intro cases
  have hcases : Table.areCases (rows.map (tableRow rowOpening rowClosing)) = true ↔ cases :=
    h.areCases_iff
  have hrows : (rows.map (tableRow rowOpening rowClosing)).map TableRow.node =
      rows.map fun row => .container .mtr
        (row.map fun cell => .container .mtd (body settings cell)) := by
    rw [List.map_map]
    exact List.map_congr_left fun row hrow =>
      node_tableRow settings (h.ne_nil hrow) (h.cells row hrow)
  have hbrackets : body settings (matrixInput opening rowOpening closing rowClosing rows) =
      [.row (Fragment.bracketNodes opening.1.symbol ++
        (contentNodes ([commaTerm].intercalate
          (rows.map fun row => [rowTerm rowOpening rowClosing row])) ++
          Fragment.bracketNodes closing.1.symbol))] := by
    rw [body_eq, ofInput_matrixInput h.cells hn]
    rfl
  refine ⟨if Table.areCases (rows.map (tableRow rowOpening rowClosing)) then
    Attributes.empty.insert .columnalign "left" else .empty, ?_,
    fun hyes => if_pos (hcases.2 hyes), fun hno => if_neg (mt hcases.1 hno)⟩
  rw [hbrackets, h.contentNodes_eq, Table.node_eq, hrows,
    Word.bracketNodes_eq (by rw [opening.2]; rfl), Word.bracketNodes_eq (by rw [closing.2]; rfl),
    List.append_assoc]

/-- Two cases after a brace, the brackets at the end do not show. A cell has a comma between brackets,
and another one is a bracket group. -/
theorem body_matrixInput_cases :
    let opening : WordOf .openBracket := ⟨⟨"\x7b", .openBracket "\x7b", by decide +kernel⟩, rfl⟩
    let closing : WordOf .closeBracket := ⟨⟨":\x7d", .closeBracket "", by decide +kernel⟩, rfl⟩
    let rowOpening : WordOf .openBracket := ⟨⟨"[", .openBracket "[", by decide +kernel⟩, rfl⟩
    let rowClosing : WordOf .closeBracket := ⟨⟨"]", .closeBracket "]", by decide +kernel⟩, rfl⟩
    let rows := [["x", "if (x, y)"], ["(-x)", "if u"]]
    let input := matrixInput opening rowOpening closing rowClosing rows
    let keyword := Node.row [Fragment.keywordSpace, .leaf .mo "if", Fragment.keywordSpace]
    input = "\x7b [ x , if (x, y) ] , [ (-x) , if u ] :\x7d" ∧ IsMatrix rows 2 ∧
      WithinLimits (notices input) ∧
      body .default input = [.row [.leaf .mo "\x7b", ⟨.mtable,
        Attributes.empty.insert .columnalign "left", [
          .container .mtr [.container .mtd [.leaf .mi "x"], .container .mtd [keyword,
            .row [.leaf .mo "(", .leaf .mi "x", .leaf .mo ",", .leaf .mi "y", .leaf .mo ")"]]],
          .container .mtr [
            .container .mtd [.row [.leaf .mo "(", .leaf .mo "-", .leaf .mi "x", .leaf .mo ")"]],
            .container .mtd [keyword, .leaf .mi "u"]]], none⟩]] := by
  intro opening closing rowOpening rowClosing rows input keyword
  have hinput : input = "\x7b [ x , if (x, y) ] , [ (-x) , if u ] :\x7d" := by
    simp [input, rows, opening, closing, rowOpening, rowClosing, matrixInput, bracketedInput]
  have hx : lexemes "x" = [.character 'x'] := by decide +kernel
  have hpair : lexemes "if (x, y)" = .symbol ⟨"if", .wordOperator "if", by decide +kernel⟩ ::
      [.symbol ⟨"(", .openBracket "(", by decide +kernel⟩, .character 'x', .symbol .comma,
        .character 'y', .symbol ⟨")", .closeBracket ")", by decide +kernel⟩] := by decide +kernel
  have hgroup : lexemes "(-x)" = [.symbol ⟨"(", .openBracket "(", by decide +kernel⟩,
      .symbol ⟨"-", .operator "-", by decide +kernel⟩, .character 'x',
      .symbol ⟨")", .closeBracket ")", by decide +kernel⟩] := by decide +kernel
  have hu : lexemes "if u" = .symbol ⟨"if", .wordOperator "if", by decide +kernel⟩ ::
      [.character 'u'] := by decide +kernel
  have hcells : ∀ row ∈ rows, ∀ cell ∈ row, IsCell cell := by
    simp only [rows, List.forall_mem_cons]
    refine ⟨⟨.of_lexemes hx ?_ ?_ ?_ ?_, .of_lexemes hpair ?_ ?_ ?_ ?_, List.forall_mem_nil _⟩,
      ⟨.of_lexemes hgroup ?_ ?_ ?_ ?_, .of_lexemes hu ?_ ?_ ?_ ?_, List.forall_mem_nil _⟩,
      List.forall_mem_nil _⟩ <;> decide +kernel
  have hdistinct : ∀ row ∈ rows, ∃ cell ∈ row, ¬ IsBracketGroup cell := by
    have hhead : ∀ cell, (lexemes cell).head?.bind Lexeme.role? ≠ some .openBracket →
        ¬ IsBracketGroup cell := by
      rintro cell hrole ⟨opening, content, closing, hcell, -⟩
      exact hrole (by simp [hcell, Lexeme.role?_symbol, opening.2])
    simp only [rows, List.forall_mem_cons]
    exact ⟨⟨"x", by simp, hhead "x" (by rw [hx]; decide)⟩,
      ⟨"if u", by simp, hhead "if u" (by rw [hu]; decide)⟩, List.forall_mem_nil _⟩
  have hmatrix : IsMatrix rows 2 := ⟨by decide, by decide, by decide, hcells, .inr hdistinct⟩
  have hn : WithinLimits (notices input) := by
    rw [notices, ofInput, lexemes_matrixInput hcells]
    simp only [rows, List.map_cons, List.map_nil, hx, hpair, hgroup, hu]
    decide +kernel
  obtain ⟨attributes, hbody, hcases, -⟩ := body_matrixInput .default hmatrix hn
  have hkeywords : ∀ row ∈ rows, ∀ cell ∈ row[1]?, BeginsWithKeyword cell := by
    rintro row hrow cell hcell
    simp only [rows, List.mem_cons, List.not_mem_nil, or_false] at hrow
    rcases hrow with rfl | rfl
    · cases hcell
      exact ⟨_, _, hpair, rfl, by decide +kernel⟩
    · cases hcell
      exact ⟨_, _, hu, rfl, by decide +kernel⟩
  rw [hcases ⟨rfl, hkeywords⟩] at hbody
  refine ⟨hinput, hmatrix, hn, ?_⟩
  rw [hbody]
  simp only [rows, List.map_cons, List.map_nil, body_eq, ofInput, hx, hpair, hgroup, hu]
  decide +kernel

end

end FormulaMarkup
