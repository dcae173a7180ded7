import FormulaMarkup.Proofs.Construction

/-!
# Recognising tables

The content of a group is looked through several times: for the commas between rows and the number
of columns, for keywords at the head of second cells, and for the cells themselves. All of these
agree on where rows and cells are, so a table has the cells that were counted, and what is no table
comes back as it was.
-/

namespace FormulaMarkup

/-! ## Looking through the content -/

namespace TableRow

/-- The number of cells, told by the commas. -/
def countCells (content : List Fragment) : Nat := 1 + (content.filter Fragment.isComma).length

/-- Whether the second piece between commas begins with a keyword. -/
def startsWithKeyword (content : List Fragment) : Bool :=
  match content.splitOnP Fragment.isComma with
  | _ :: (.keyword _ :: _) :: _ => true
  | _ => false

/-- The cells, if `cells` are finished and `cell` is what has been read of the next one. -/
def collect (cells : List Node) (cell : List Fragment) : List Fragment → List Node
  | [] => cells ++ [.container .mtd (Fragment.nodesOfList cell)]
  | fragment :: fragments =>
    if fragment.isComma then
      collect (cells ++ [.container .mtd (Fragment.nodesOfList cell)]) [] fragments
    else
      collect cells (cell ++ [fragment]) fragments

def build (content : List Fragment) : Node := .container .mtr (collect [] [] content)

/-- Whether a fragment is a row in the same brackets as `first` and with as many cells. -/
def isLike (first : TableRow) (fragment : Fragment) : Bool :=
  match ofFragment? fragment with
  | some row =>
    row.opening.output = first.opening.output && row.closing.output = first.closing.output &&
      countCells row.content = countCells first.content
  | none => false

end TableRow

namespace Table

/-- The first element, the third and so on. -/
def everyOther {α : Type} : List α → List α
  | [] => []
  | [a] => [a]
  | a :: _ :: s => a :: everyOther s

/-- Whether there are two pieces or more, with a comma between any two of them. -/
def isSeparated (content : List Fragment) : Bool :=
  3 ≤ content.length && content.length % 2 = 1 && (everyOther content.tail).all Fragment.isComma

/-- The number of columns, if the content has the shape of a table. -/
def columns? (content : List Fragment) : Option Nat :=
  if isSeparated content then
    (content.head?.bind TableRow.ofFragment?).bind fun first =>
      if (everyOther content).tail.all first.isLike then
        some (TableRow.countCells first.content)
      else
        none
  else
    none

def buildRow? : Fragment → Option Node
  | .group _ _ content _ => some (TableRow.build content)
  | _ => none

def isCaseRow : Fragment → Bool
  | .group _ _ content _ => TableRow.startsWithKeyword content
  | _ => false

/-- The table that the content is, or else the content as it is. -/
def recognize (content : List Fragment) : Except (List Fragment) Node :=
  match columns? content with
  | some columns =>
    let table := Node.container .mtable (content.filterMap buildRow?)
    if columns = 2 && (everyOther content).all isCaseRow then
      .ok (table.setAttr .columnalign "left")
    else
      .ok table
  | none => .error content

end Table

/-! ## Cells -/

namespace TableRow

theorem cellsOf_eq_splitOnP (content : List Fragment) :
    cellsOf content = content.splitOnP Fragment.isComma := by
  induction content with
  | nil => rfl
  | cons fragment content ih =>
    rw [cellsOf, List.splitOnP_cons_eq_if_modifyHead, ← ih]
    split
    · rfl
    · obtain ⟨cell, cells, hcells⟩ := List.exists_cons_of_ne_nil (cellsOf_ne_nil content)
      rw [hcells]
      rfl

theorem length_splitOnP (content : List Fragment) :
    (content.splitOnP Fragment.isComma).length = countCells content := by
  induction content with
  | nil => rfl
  | cons fragment content ih =>
    rw [countCells] at ih ⊢
    rw [List.splitOnP_cons_eq_if_modifyHead, List.filter_cons]
    split
    · rw [List.length_cons, List.length_cons, ih, Nat.add_assoc]
    · rw [List.length_modifyHead, ih]

theorem length_cells (row : TableRow) : row.cells.length = countCells row.content := by
  rw [cells, cellsOf_eq_splitOnP, length_splitOnP]

theorem collect_eq (cells : List Node) (cell content : List Fragment) :
    collect cells cell content =
      cells ++ ((content.splitOnP Fragment.isComma).modifyHead (cell ++ ·)).map
        fun cell => .container .mtd (Fragment.nodesOfList cell) := by
  induction content generalizing cells cell with
  | nil => simp [collect]
  | cons fragment content ih =>
    rw [collect, List.splitOnP_cons_eq_if_modifyHead]
    split
    · rw [ih]
      cases content.splitOnP Fragment.isComma <;> simp
    · rw [ih, List.modifyHead_modifyHead]
      simp [Function.comp_def]

theorem build_eq (row : TableRow) : build row.content = row.node := by
  have hcells : (cellsOf row.content).modifyHead ([] ++ ·) = cellsOf row.content := by
    cases cellsOf row.content <;> rfl
  rw [build, collect_eq, ← cellsOf_eq_splitOnP, hcells]
  rfl

/-- A row with a keyword at the head of its second cell has a second cell. -/
theorem startsWithKeyword_iff {content : List Fragment} :
    startsWithKeyword content = true ↔ ∃ first symbol cell cells,
      content.splitOnP Fragment.isComma = first :: (.keyword symbol :: cell) :: cells := by
  unfold startsWithKeyword
  rcases content.splitOnP Fragment.isComma with _ | ⟨first, _ | ⟨_ | ⟨fragment, cell⟩, cells⟩⟩
  · simp
  · simp
  · simp
  · cases fragment <;> simp

theorem isCase_eq (row : TableRow) : row.isCase = startsWithKeyword row.content := by
  rw [isCase, cells, cellsOf_eq_splitOnP]
  rfl

theorem ofFragment?_group (row : TableRow) : ofFragment? row.group = some row := rfl

theorem isLike_group (first row : TableRow) : first.isLike row.group = first.fits row := by
  simp [isLike, ofFragment?_group, fits, length_cells]

theorem exists_of_isLike {first : TableRow} {fragment : Fragment}
    (h : first.isLike fragment = true) : ∃ row : TableRow, fragment = row.group := by
  unfold isLike at h
  split at h
  · next row hrow => exact ⟨row, eq_group_of_ofFragment? hrow⟩
  · cases h

theorem isComma_group (row : TableRow) : row.group.isComma = false := rfl

end TableRow

/-! ## Rows -/

namespace Table

variable {α : Type} {content : List Fragment} {rows : List TableRow}

theorem getElem?_everyOther (s : List α) (i : Nat) : (everyOther s)[i]? = s[2 * i]? := by
  fun_induction everyOther s generalizing i with
  | case1 => simp
  | case2 a => cases i <;> simp [Nat.mul_succ]
  | case3 a _ s ih => cases i <;> simp [Nat.mul_succ, ih]

theorem length_everyOther (s : List α) : (everyOther s).length = (s.length + 1) / 2 := by
  fun_induction everyOther s with
  | case1 => simp
  | case2 a => simp
  | case3 a _ s ih =>
    simp only [List.length_cons, ih]
    omega

theorem all_everyOther_iff {p : α → Bool} {s : List α} :
    (everyOther s).all p = true ↔ ∀ i, ∀ a ∈ s[2 * i]?, p a = true := by
  simp only [List.all_eq_true, List.mem_iff_getElem?, getElem?_everyOther, Option.mem_def]
  exact ⟨fun h i a ha => h a ⟨i, ha⟩, fun h a ⟨i, ha⟩ => h i a ha⟩

theorem all_everyOther_tail_iff {p : α → Bool} {s : List α} :
    (everyOther s.tail).all p = true ↔ ∀ i, ∀ a ∈ s[2 * i + 1]?, p a = true := by
  simp only [all_everyOther_iff, List.getElem?_tail]

theorem everyOther_tail (a b : α) (s : List α) :
    everyOther (a :: b :: s).tail = b :: everyOther s.tail := by
  cases s <;> rfl

theorem ofFragment?_eq_some_iff {fragment : Fragment} {row : TableRow} :
    TableRow.ofFragment? fragment = some row ↔ fragment = row.group :=
  ⟨TableRow.eq_group_of_ofFragment?, fun h => h ▸ row.ofFragment?_group⟩

theorem rows?_cons_cons {fragment comma : Fragment} :
    rows? (fragment :: comma :: content) = some rows ↔
      comma.isComma = true ∧ ∃ row more,
        fragment = row.group ∧ rows? content = some more ∧ rows = row :: more := by
  simp only [← ofFragment?_eq_some_iff, rows?]
  split
  · next hcomma =>
    cases hrow : TableRow.ofFragment? fragment with
    | none => simp
    | some row =>
      cases hmore : rows? content with
      | none => simp
      | some more => simp [hcomma, eq_comm]
  · next hcomma => simp [hcomma]

/-- Rows stand at every other place, with a comma between any two of them. -/
theorem rows?_eq_some_iff : (content : List Fragment) → (rows : List TableRow) →
    (rows? content = some rows ↔ content.length % 2 = 1 ∧
      (everyOther content.tail).all Fragment.isComma = true ∧
        everyOther content = rows.map TableRow.group)
  | [], rows => by simp [rows?]
  | [fragment], rows => by
    cases rows with
    | nil => simp [rows?, everyOther]
    | cons row rows =>
      cases rows <;> simp [rows?, everyOther, ofFragment?_eq_some_iff]
  | fragment :: comma :: content, rows => by
    have hlength : (fragment :: comma :: content).length % 2 = content.length % 2 := by
      simp only [List.length_cons]
      omega
    rw [rows?_cons_cons, hlength, everyOther_tail, List.all_cons, Bool.and_eq_true, everyOther]
    constructor
    · rintro ⟨hcomma, row, more, rfl, hmore, rfl⟩
      obtain ⟨hodd, hcommas, hrows⟩ := (rows?_eq_some_iff content more).1 hmore
      exact ⟨hodd, ⟨hcomma, hcommas⟩, by rw [hrows, List.map_cons]⟩
    · rintro ⟨hodd, ⟨hcomma, hcommas⟩, hrows⟩
      cases rows with
      | nil => cases hrows
      | cons row more =>
        obtain ⟨hrow, hmore⟩ := List.cons.inj hrows
        exact ⟨hcomma, row, more, hrow,
          (rows?_eq_some_iff content more).2 ⟨hodd, hcommas, hmore⟩, rfl⟩

/-- There is a comma less than there are rows. -/
theorem length_of_rows (hodd : content.length % 2 = 1)
    (hrows : everyOther content = rows.map TableRow.group) :
    content.length + 1 = 2 * rows.length := by
  have hlength := congrArg List.length hrows
  rw [length_everyOther, List.length_map] at hlength
  omega

theorem ofContent?_eq_some_iff {table : Node} :
    ofContent? content = some table ↔ ∃ first second more,
      rows? content = some (first :: second :: more) ∧
        (second :: more).all first.fits = true ∧ table = node (first :: second :: more) := by
  unfold ofContent?
  split
  · next first second more hrows =>
    simp only [hrows, Option.some.injEq]
    split
    · next hfits =>
      constructor
      · rintro ⟨⟩
        exact ⟨first, second, more, rfl, hfits, rfl⟩
      · rintro ⟨_, _, _, ⟨⟩, -, rfl⟩
        rfl
    · next hfits =>
      constructor
      · rintro ⟨⟩
      · rintro ⟨_, _, _, ⟨⟩, hall, -⟩
        exact absurd hall hfits
  · next hrows =>
    constructor
    · rintro ⟨⟩
    · rintro ⟨first, second, more, hsome, -⟩
      exact absurd hsome (hrows first second more)

theorem exists_rows {first : TableRow} {fragments : List Fragment}
    (h : fragments.all first.isLike = true) :
    ∃ rows : List TableRow, fragments = rows.map TableRow.group ∧ rows.all first.fits = true := by
  induction fragments with
  | nil => exact ⟨[], rfl, rfl⟩
  | cons fragment fragments ih =>
    rw [List.all_cons, Bool.and_eq_true] at h
    obtain ⟨row, rfl⟩ := TableRow.exists_of_isLike h.1
    obtain ⟨rows, rfl, hrows⟩ := ih h.2
    refine ⟨row :: rows, rfl, ?_⟩
    rw [List.all_cons, hrows, ← TableRow.isLike_group, h.1]
    rfl

/-- A row follows the first one if the content is long enough. -/
theorem exists_second_row {first : TableRow} {fragments : List Fragment}
    (hlong : 3 ≤ content.length) (hodd : content.length % 2 = 1)
    (hfragments : everyOther content = first.group :: fragments)
    (hlike : fragments.all first.isLike = true) :
    ∃ second more, everyOther content = (first :: second :: more).map TableRow.group ∧
      (second :: more).all first.fits = true := by
  obtain ⟨rows, rfl, hfits⟩ := exists_rows hlike
  have hlength : content.length + 1 = 2 * (first :: rows).length := length_of_rows hodd hfragments
  cases rows with
  | nil =>
    rw [List.length_singleton] at hlength
    omega
  | cons second more => exact ⟨second, more, hfragments, hfits⟩

theorem all_isLike (first : TableRow) (rows : List TableRow) :
    (rows.map TableRow.group).all first.isLike = rows.all first.fits := by
  rw [List.all_map]
  exact congrArg rows.all (funext first.isLike_group)

theorem head?_everyOther (s : List α) : (everyOther s).head? = s.head? := by
  fun_cases everyOther s <;> rfl

/-- The columns are counted in tables only. -/
theorem columns?_eq_some_iff {columns : Nat} :
    columns? content = some columns ↔ ∃ first second more,
      rows? content = some (first :: second :: more) ∧
        (second :: more).all first.fits = true ∧ columns = first.cells.length := by
  simp only [columns?, isSeparated, Option.ite_none_right_eq_some, Option.bind_eq_some_iff,
    ofFragment?_eq_some_iff, rows?_eq_some_iff, TableRow.length_cells, Bool.and_eq_true,
    decide_eq_true_eq, Option.some.injEq]
  constructor
  · rintro ⟨⟨⟨hlength, hodd⟩, hcommas⟩, first, ⟨_, hhead, rfl⟩, hlike, rfl⟩
    rw [← head?_everyOther, List.head?_eq_some_iff] at hhead
    obtain ⟨fragments, hfragments⟩ := hhead
    rw [hfragments, List.tail_cons] at hlike
    obtain ⟨second, more, hrows, hfits⟩ := exists_second_row hlength hodd hfragments hlike
    exact ⟨first, second, more, ⟨hodd, hcommas, hrows⟩, hfits, rfl⟩
  · rintro ⟨first, second, more, ⟨hodd, hcommas, hrows⟩, hfits, rfl⟩
    have hlength := length_of_rows hodd hrows
    rw [List.length_cons, List.length_cons] at hlength
    have hlike : (everyOther content).tail.all first.isLike = true := by
      rw [hrows, ← hfits]
      exact all_isLike first (second :: more)
    have hhead : content.head? = some first.group := by
      rw [← head?_everyOther, hrows]
      rfl
    exact ⟨⟨⟨by omega, hodd⟩, hcommas⟩, first, ⟨first.group, hhead, rfl⟩, hlike, rfl⟩

theorem filterMap_buildRow? : (content : List Fragment) → (rows : List TableRow) →
    rows? content = some rows → content.filterMap buildRow? = rows.map TableRow.node
  | [], rows, h => by cases h
  | [fragment], rows, h => by
    obtain ⟨row, hrow, rfl⟩ := Option.map_eq_some_iff.1 h
    obtain rfl := TableRow.eq_group_of_ofFragment? hrow
    exact congrArg ([·]) row.build_eq
  | fragment :: comma :: content, rows, h => by
    obtain ⟨hcomma, row, more, rfl, hmore, rfl⟩ := rows?_cons_cons.1 h
    have hnone : buildRow? comma = none := by
      cases comma with
      | node n => rfl
      | _ => cases hcomma
    have hrow : buildRow? row.group = some row.node := congrArg some row.build_eq
    rw [List.filterMap_cons_some hrow, List.filterMap_cons_none hnone,
      filterMap_buildRow? content more hmore]
    rfl

theorem areCases_eq {first : TableRow} {rows : List TableRow}
    (h : rows.all first.fits = true) :
    areCases (first :: rows) = (first.cells.length = 2 && (first :: rows).all TableRow.isCase) := by
  have hcells := length_cells_of_fits h
  rw [Bool.eq_iff_iff, areCases, Bool.and_eq_true, List.all_eq_true, List.all_eq_true,
    decide_eq_true_eq]
  simp only [Bool.and_eq_true, decide_eq_true_eq]
  constructor
  · intro hcases
    exact ⟨(hcases first List.mem_cons_self).1, fun row hrow => (hcases row hrow).2⟩
  · rintro ⟨hcolumns, hcases⟩ row hrow
    exact ⟨(hcells row hrow).trans hcolumns, hcases row hrow⟩

/-- All ways through the content lead to the same table. -/
theorem recognize_eq (content : List Fragment) :
    recognize content = match ofContent? content with
      | some table => .ok table
      | none => .error content := by
  unfold recognize
  cases hcolumns : columns? content with
  | none =>
    have hnone : ofContent? content = none := by
      cases htable : ofContent? content with
      | none => rfl
      | some table =>
        obtain ⟨first, second, more, hrows, hfits, -⟩ := ofContent?_eq_some_iff.1 htable
        have hsome := columns?_eq_some_iff.2 ⟨first, second, more, hrows, hfits, rfl⟩
        rw [hcolumns] at hsome
        cases hsome
    rw [hnone]
  | some columns =>
    obtain ⟨first, second, more, hrows, hfits, rfl⟩ := columns?_eq_some_iff.1 hcolumns
    have htable := ofContent?_eq_some_iff.2 ⟨first, second, more, hrows, hfits, rfl⟩
    have hcases : (everyOther content).all isCaseRow =
        (first :: second :: more).all TableRow.isCase := by
      rw [((rows?_eq_some_iff _ _).1 hrows).2.2, List.all_map]
      exact congrArg (List.all _) (funext fun row => row.isCase_eq.symm)
    rw [htable]
    simp only [hcases, filterMap_buildRow? content _ hrows, ← areCases_eq hfits]
    unfold node
    simp only
    split <;> rfl

/-! ## What is a table -/

/-- The content is an odd number of pieces, at least three. Every other piece is a comma, and the
pieces around are closed groups, not bars, in one kind of brackets and with equally many commas. -/
structure IsTable (content : List Fragment) : Prop where
  long : 3 ≤ content.length
  odd : content.length % 2 = 1
  commas : ∀ i, ∀ fragment ∈ content[2 * i + 1]?, fragment.isComma = true
  rows : ∃ opening closing commas, ∀ i, ∀ fragment ∈ content[2 * i]?, ∃ row : TableRow,
    fragment = row.group ∧ row.opening.output = opening ∧ row.closing.output = closing ∧
      row.content.countP Fragment.isComma = commas

theorem fits_iff {first row : TableRow} :
    first.fits row = true ↔ row.opening.output = first.opening.output ∧
      row.closing.output = first.closing.output ∧
        row.content.countP Fragment.isComma = first.content.countP Fragment.isComma := by
  simp only [TableRow.fits, TableRow.length_cells, TableRow.countCells, List.countP_eq_length_filter,
    Bool.and_eq_true, decide_eq_true_eq, and_assoc, Nat.add_left_cancel_iff]

theorem isTable_iff : IsTable content ↔ ∃ first second more,
    rows? content = some (first :: second :: more) ∧
      (second :: more).all first.fits = true := by
  simp only [rows?_eq_some_iff, all_everyOther_tail_iff]
  constructor
  · rintro ⟨hlong, hodd, hcommas, opening, closing, commas, hrows⟩
    obtain ⟨fragment, hhead⟩ : ∃ fragment, content[2 * 0]? = some fragment :=
      ⟨_, List.getElem?_eq_getElem (by omega)⟩
    obtain ⟨first, rfl, hopening, hclosing, hcount⟩ := hrows 0 fragment hhead
    have hlike : (everyOther content).all first.isLike = true := by
      refine all_everyOther_iff.2 fun i fragment hfragment => ?_
      obtain ⟨row, rfl, hopening', hclosing', hcount'⟩ := hrows i fragment hfragment
      rw [TableRow.isLike_group, fits_iff]
      exact ⟨hopening'.trans hopening.symm, hclosing'.trans hclosing.symm,
        hcount'.trans hcount.symm⟩
    rw [← getElem?_everyOther, ← List.head?_eq_getElem?, List.head?_eq_some_iff] at hhead
    obtain ⟨fragments, hfragments⟩ := hhead
    rw [hfragments, List.all_cons, Bool.and_eq_true] at hlike
    obtain ⟨second, more, hrows, hfits⟩ := exists_second_row hlong hodd hfragments hlike.2
    exact ⟨first, second, more, ⟨hodd, hcommas, hrows⟩, hfits⟩
  · rintro ⟨first, second, more, ⟨hodd, hcommas, hrows⟩, hfits⟩
    have hlength := length_of_rows hodd hrows
    rw [List.length_cons, List.length_cons] at hlength
    refine ⟨by omega, hodd, hcommas, first.opening.output, first.closing.output,
      first.content.countP Fragment.isComma, fun i fragment hfragment => ?_⟩
    rw [Option.mem_def, ← getElem?_everyOther, hrows] at hfragment
    obtain ⟨row, hrow, rfl⟩ := List.mem_map.1 (List.mem_of_getElem? hfragment)
    refine ⟨row, rfl, ?_⟩
    rcases List.mem_cons.1 hrow with rfl | hrow
    · exact ⟨rfl, rfl, rfl⟩
    · exact fits_iff.1 (List.all_eq_true.1 hfits row hrow)

/-- The second of two cells begins with a keyword. -/
def IsCase (content : List Fragment) : Prop :=
  ∃ first symbol cell,
    content.splitOnP Fragment.isComma = [first, .keyword symbol :: cell]

/-- The table has a row for each group of the content, and the cells of a row are the pieces between
the commas of the group. Case distinctions are aligned to the left. -/
structure Tabulates (table : Node) (content : List Fragment) : Prop where
  element : table.element = .mtable
  text : table.text = none
  height : table.children.length = (content.length + 1) / 2
  row : ∀ i, ∀ row : TableRow, content[2 * i]? = some row.group →
    table.children[i]? = some (.container .mtr
      ((row.content.splitOnP Fragment.isComma).map fun cell =>
        .container .mtd (Fragment.nodesOfList cell)))
  width : ∃ columns, ∀ row ∈ table.children, row.children.length = columns
  aligned : (∀ i, ∀ row : TableRow, content[2 * i]? = some row.group → IsCase row.content) →
    table.attributes = Attributes.empty.insert .columnalign "left"
  plain : ¬ (∀ i, ∀ row : TableRow, content[2 * i]? = some row.group → IsCase row.content) →
    table.attributes = .empty

theorem node_eq (rows : List TableRow) :
    node rows = ⟨.mtable, if areCases rows then Attributes.empty.insert .columnalign "left"
      else .empty, rows.map TableRow.node, none⟩ := by
  unfold node
  simp only
  split <;> rfl

theorem isCase_iff {row : TableRow} :
    row.cells.length = 2 ∧ row.isCase = true ↔ IsCase row.content := by
  rw [TableRow.isCase_eq, TableRow.startsWithKeyword_iff, TableRow.cells,
    TableRow.cellsOf_eq_splitOnP]
  constructor
  · rintro ⟨hlength, first, symbol, cell, cells, hcells⟩
    rw [hcells, List.length_cons, List.length_cons] at hlength
    obtain rfl : cells = [] := List.eq_nil_of_length_eq_zero (by omega)
    exact ⟨first, symbol, cell, hcells⟩
  · rintro ⟨first, symbol, cell, hcells⟩
    exact ⟨by rw [hcells]; rfl, first, symbol, cell, [], hcells⟩

/-- The groups of the content are the rows. -/
theorem getElem?_eq_some_group_iff (hrows : everyOther content = rows.map TableRow.group) (i : Nat)
    (row : TableRow) : content[2 * i]? = some row.group ↔ rows[i]? = some row := by
  rw [← getElem?_everyOther, hrows, List.getElem?_map, Option.map_eq_some_iff]
  constructor
  · rintro ⟨row', hrow', hgroup⟩
    have hsome := congrArg TableRow.ofFragment? hgroup
    rw [TableRow.ofFragment?_group, TableRow.ofFragment?_group, Option.some.injEq] at hsome
    rw [hrow', hsome]
  · intro hrow
    exact ⟨row, hrow, rfl⟩

theorem areCases_iff (hrows : everyOther content = rows.map TableRow.group) :
    areCases rows = true ↔
      ∀ i, ∀ row : TableRow, content[2 * i]? = some row.group → IsCase row.content := by
  simp only [getElem?_eq_some_group_iff hrows, areCases, List.all_eq_true, Bool.and_eq_true,
    decide_eq_true_eq, isCase_iff, List.mem_iff_getElem?]
  constructor
  · exact fun h i row hrow => h row ⟨i, hrow⟩
  · exact fun h row ⟨i, hrow⟩ => h i row hrow

theorem node_tabulates {first : TableRow} (hcontent : rows? content = some (first :: rows))
    (hfits : rows.all first.fits = true) : Tabulates (node (first :: rows)) content := by
  have hrows := ((rows?_eq_some_iff _ _).1 hcontent).2.2
  have hcases := areCases_iff hrows
  rw [node_eq]
  constructor
  case element => rfl
  case text => rfl
  case height =>
    rw [← length_everyOther, hrows, List.length_map, List.length_map]
  case row =>
    intro i row hrow
    rw [getElem?_eq_some_group_iff hrows] at hrow
    rw [List.getElem?_map, hrow, Option.map_some, TableRow.node, TableRow.cells,
      TableRow.cellsOf_eq_splitOnP]
  case width =>
    refine ⟨first.cells.length, fun node hnode => ?_⟩
    obtain ⟨row, hrow, rfl⟩ := List.mem_map.1 hnode
    rw [TableRow.node, Node.container, List.length_map, length_cells_of_fits hfits row hrow]
  case aligned =>
    intro h
    exact if_pos (hcases.2 h)
  case plain =>
    intro h
    exact if_neg (mt hcases.1 h)

/-- A table is what has the shape of one, and it shows all of its content in order. All else comes
back unchanged. -/
theorem recognize_eq_ok_iff (content : List Fragment) :
    ((∃ table, recognize content = .ok table) ↔ IsTable content) ∧
    (¬ IsTable content → recognize content = .error content) ∧
    (∀ table, recognize content = .ok table → Tabulates table content) ∧
    resolve content = match recognize content with
      | .ok table => [.node table]
      | .error content => content := by
  have hshape : IsTable content ↔ ∃ table, ofContent? content = some table := by
    simp only [isTable_iff, ofContent?_eq_some_iff]
    constructor
    · rintro ⟨first, second, more, hrows, hfits⟩
      exact ⟨_, first, second, more, hrows, hfits, rfl⟩
    · rintro ⟨_, first, second, more, hrows, hfits, -⟩
      exact ⟨first, second, more, hrows, hfits⟩
  rw [hshape, recognize_eq, resolve]
  cases htable : ofContent? content with
  | none => simp
  | some table =>
    obtain ⟨first, second, more, hrows, hfits, rfl⟩ := ofContent?_eq_some_iff.1 htable
    have htabulates := node_tabulates hrows hfits
    simp [htabulates]

end Table

end FormulaMarkup
