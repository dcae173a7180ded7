import FormulaMarkup.Proofs.Construction
import FormulaMarkup.Proofs.Markup.Leaves

/-!
# What a fragment shows wherever it is placed

Where a fragment is placed decides which brackets it shows, and a table shows no commas. All other
leaves are there in every place and in one order. So the leaves of a fragment without commas and
brackets are covered by those of its nodes.
-/

namespace FormulaMarkup

/-- The leaves `t` are the leaves `s` and perhaps some operators between them. -/
structure Covers (s t : List Leaf) : Prop where
  sublist : s.Sublist t
  content : t.filter (·.1 ≠ .mo) = s.filter (·.1 ≠ .mo)

def bare (s : List Leaf) : List Leaf := s.filter (· ≠ (.mo, ","))

namespace Covers

variable {s s' t t' u : List Leaf}

@[simp, refl] theorem refl (s : List Leaf) : Covers s s := ⟨.refl s, rfl⟩

theorem trans (h : Covers s t) (h' : Covers t u) : Covers s u :=
  ⟨h.sublist.trans h'.sublist, h'.content.trans h.content⟩

theorem append (h : Covers s t) (h' : Covers s' t') : Covers (s ++ s') (t ++ t') := by
  refine ⟨h.sublist.append h'.sublist, ?_⟩
  rw [List.filter_append, List.filter_append, h.content, h'.content]

theorem flatMap {α : Type} {f g : α → List Leaf} {xs : List α}
    (h : ∀ x ∈ xs, Covers (f x) (g x)) : Covers (xs.flatMap f) (xs.flatMap g) := by
  induction xs with
  | nil => exact refl []
  | cons x xs ih =>
    rw [List.flatMap_cons, List.flatMap_cons]
    exact (h x (by simp)).append (ih fun y hy => h y (by simp [hy]))

/-- Operators may stand anywhere. -/
theorem of_operators (h : ∀ leaf ∈ t, leaf.1 = .mo) : Covers [] t := by
  refine ⟨List.nil_sublist t, ?_⟩
  rw [List.filter_nil, List.filter_eq_nil_iff]
  intro leaf hleaf
  simp [h leaf hleaf]

theorem operator (text : String) : Covers [] [(.mo, text)] := of_operators (by simp)

theorem after (h : Covers s t) (hu : Covers [] u) : Covers s (u ++ t) := hu.append h

theorem before (h : Covers s t) (hu : Covers [] u) : Covers s (t ++ u) := by
  have happend := h.append hu
  rwa [List.append_nil] at happend

/-- All leaves but those of operators are the same. -/
theorem filter_eq (h : Covers s t) {p : Leaf → Bool} (hp : ∀ leaf, p leaf = true → leaf.1 ≠ .mo) :
    t.filter p = s.filter p := by
  have hfilter : ∀ u : List Leaf, (u.filter (·.1 ≠ .mo)).filter p = u.filter p := by
    intro u
    rw [List.filter_filter]
    refine List.filter_congr fun leaf _ => ?_
    cases hleaf : p leaf with
    | false => rfl
    | true => simpa using hp leaf hleaf
  rw [← hfilter t, h.content, hfilter s]

theorem textsOf_eq (h : Covers s t) {element : Element} (helement : element ≠ .mo) :
    textsOf element t = textsOf element s := by
  rw [textsOf, textsOf, h.filter_eq]
  intro leaf hleaf
  rwa [of_decide_eq_true hleaf]

theorem count_textsOf_le (h : Covers s t) (element : Element) (text : String) :
    (textsOf element s).count text ≤ (textsOf element t).count text :=
  ((h.sublist.filter _).map _).count_le text

theorem bare_self (s : List Leaf) : Covers (bare s) s := by
  refine ⟨List.filter_sublist, ?_⟩
  rw [bare, List.filter_filter]
  refine List.filter_congr fun leaf _ => ?_
  by_cases hleaf : leaf.1 = .mo
  · simp [hleaf]
  · have hne : leaf ≠ (.mo, ",") := fun h => hleaf (by rw [h])
    simp [hleaf, hne]

/-- Commas can be left out where none has to be shown. -/
theorem to_bare (h : Covers s t) (hs : (.mo, ",") ∉ s) : Covers s (bare t) := by
  have hself : bare s = s := by
    rw [bare, List.filter_eq_self]
    intro leaf hleaf
    have hne : leaf ≠ (.mo, ",") := fun heq => hs (heq ▸ hleaf)
    simp [hne]
  refine ⟨?_, (bare_self t).content.symm.trans h.content⟩
  rw [← hself]
  exact h.sublist.filter _

end Covers

/-! ## Fragments -/

namespace Fragment

mutual

/-- The leaves that a fragment has in every place. -/
def core : Fragment → List Leaf
  | .node n => bare n.leaves
  | .group _ _ content _ => coreOfList content
  | .negative digits => [(.mn, digits)]
  | .keyword symbol => [(.mo, symbol.output)]

def coreOfList : List Fragment → List Leaf
  | [] => []
  | fragment :: fragments => fragment.core ++ coreOfList fragments

end

theorem bracketNodes_covers {symbol : Symbol} (h : symbol.element = .mo) :
    Covers [] (Node.leavesOfList (bracketNodes symbol)) := by
  unfold bracketNodes
  split
  · exact .refl []
  · rw [h]
    exact .operator _

theorem bracketed_covers {opening : Symbol} {closing : Option Symbol} {content : List Node}
    {s : List Leaf} (hopening : opening.element = .mo)
    (hclosing : ∀ symbol ∈ closing, symbol.element = .mo)
    (h : Covers s (Node.leavesOfList content)) :
    Covers s (bracketed opening closing content).leaves := by
  simp only [bracketed, Node.leaves_row, Node.leavesOfList_append]
  refine (h.before ?_).after (bracketNodes_covers hopening)
  cases closing with
  | none => exact .refl []
  | some symbol => exact bracketNodes_covers (hclosing symbol rfl)

mutual

theorem Sound.covers_nodes : (fragment : Fragment) → fragment.Sound →
    Covers fragment.core (Node.leavesOfList fragment.nodes)
  | .node n, _ => by
    have h := Covers.bare_self n.leaves
    simpa [nodes, core] using h
  | .group opening closing content bars, h => by
    obtain ⟨hopening, hclosing, hcontent⟩ := h
    have hnodes := bracketed_covers hopening hclosing (SoundList.covers_nodes content hcontent)
    simpa [nodes, core] using hnodes
  | .negative digits, _ => (Covers.refl [(.mn, digits)]).after (.operator "-")
  | .keyword symbol, _ => .refl _

theorem SoundList.covers_nodes : (fragments : List Fragment) → SoundList fragments →
    Covers (coreOfList fragments) (Node.leavesOfList (nodesOfList fragments))
  | [], _ => .refl []
  | fragment :: fragments, h => by
    rw [coreOfList, nodesOfList, Node.leavesOfList_append]
    exact (Sound.covers_nodes fragment h.1).append (SoundList.covers_nodes fragments h.2)

end

theorem Sound.covers_single {fragment : Fragment} (h : fragment.Sound) :
    Covers fragment.core fragment.single.leaves := by
  rw [Fragment.single, Node.leaves_singleOrRow]
  exact Sound.covers_nodes fragment h

theorem Sound.covers_argument {fragment : Fragment} (h : fragment.Sound) :
    Covers fragment.core fragment.argument.leaves := by
  unfold Fragment.argument
  split
  · rw [Node.leaves_singleOrRow]
    exact SoundList.covers_nodes _ h.2.2
  · exact h.covers_single

theorem Sound.core_of_isComma {fragment : Fragment} (h : fragment.Sound)
    (hcomma : fragment.isComma = true) : fragment.core = [] := by
  cases fragment with
  | node n =>
    have hinline : n.Inline := h.inline
    rw [core, hinline.leaves_of_isOperator hcomma]
    decide
  | _ => cases hcomma

end Fragment

/-! ## Tables -/

namespace TableRow

/-- The cells hold what the commas separate. -/
theorem flatten_cellsOf (content : List Fragment) :
    (cellsOf content).flatten = content.filter (!·.isComma) := by
  induction content with
  | nil => rfl
  | cons fragment content ih =>
    rw [List.filter_cons, ← ih]
    simp only [cellsOf]
    split
    · next hcomma => simp [hcomma]
    · next hcomma =>
      split
      · next hnil => exact absurd hnil (cellsOf_ne_nil content)
      · next cell cells hcells => simp [hcomma, hcells]

theorem coreOfList_filter {content : List Fragment} (h : Fragment.SoundList content) :
    Fragment.coreOfList (content.filter (!·.isComma)) = Fragment.coreOfList content := by
  induction content with
  | nil => rfl
  | cons fragment content ih =>
    rw [List.filter_cons, Fragment.coreOfList]
    split
    · rw [Fragment.coreOfList, ih h.2]
    · next hcomma =>
      rw [h.1.core_of_isComma (by simpa using hcomma), ih h.2, List.nil_append]

theorem leaves_cells (cells : List (List Fragment)) :
    Node.leavesOfList (cells.map fun cell => .container .mtd (Fragment.nodesOfList cell)) =
      Node.leavesOfList (Fragment.nodesOfList cells.flatten) := by
  induction cells with
  | nil => rfl
  | cons cell cells ih =>
    rw [List.map_cons, List.flatten_cons, Fragment.nodesOfList_append, Node.leavesOfList_append,
      ← ih]
    rfl

theorem covers_node {row : TableRow} (h : Fragment.SoundList row.content) :
    Covers (Fragment.coreOfList row.content) row.node.leaves := by
  have hsound : Fragment.SoundList (row.content.filter (!·.isComma)) :=
    Fragment.soundList_iff.2 fun fragment hf =>
      Fragment.soundList_iff.1 h fragment (List.mem_filter.1 hf).1
  rw [node, Node.leaves_container, leaves_cells, cells, flatten_cellsOf, ← coreOfList_filter h]
  exact Fragment.SoundList.covers_nodes _ hsound

end TableRow

namespace Table

theorem core_of_rows? {content : List Fragment} {rows : List TableRow}
    (h : Fragment.SoundList content) (hrows : rows? content = some rows) :
    Fragment.coreOfList content = rows.flatMap fun row => Fragment.coreOfList row.content := by
  have hgroup : ∀ fragment row, TableRow.ofFragment? fragment = some row →
      fragment.core = Fragment.coreOfList row.content := by
    intro fragment row hrow
    unfold TableRow.ofFragment? at hrow
    split at hrow
    · cases hrow
      rfl
    · cases hrow
  fun_induction rows? content generalizing rows with
  | case1 => cases hrows
  | case2 fragment =>
    obtain ⟨row, hrow, rfl⟩ := Option.map_eq_some_iff.1 hrows
    simp [Fragment.coreOfList, hgroup fragment row hrow]
  | case3 fragment comma fragments hcomma row more hmore hrow ih =>
    cases hrows
    rw [Fragment.coreOfList, Fragment.coreOfList, hgroup fragment row hrow,
      h.2.1.core_of_isComma hcomma, ih h.2.2 hmore, List.nil_append, List.flatMap_cons]
  | case4 => cases hrows
  | case5 => cases hrows

theorem leaves_node (rows : List TableRow) :
    (node rows).leaves = rows.flatMap fun row => row.node.leaves := by
  have htable : (Node.container .mtable (rows.map TableRow.node)).leaves =
      rows.flatMap fun row => row.node.leaves := by
    rw [Node.leaves_container, Node.leavesOfList_eq_flatMap, List.flatMap_map]
  unfold node
  simp only
  split
  · rw [Node.leaves_setAttr, htable]
  · exact htable

/-- What has to be shown besides commas is shown in a table too. -/
theorem covers_resolve {content : List Fragment} {s : List Leaf} (hs : (.mo, ",") ∉ s)
    (hsound : Fragment.SoundList content) (h : Covers s (Fragment.coreOfList content)) :
    Covers s (Fragment.coreOfList (resolve content)) := by
  unfold resolve
  split
  · next table htable =>
    unfold ofContent? at htable
    split at htable
    · next first second rows hrows =>
      split at htable
      · cases htable
        rw [core_of_rows? hsound hrows] at h
        have hnodes : Covers s (node (first :: second :: rows)).leaves := by
          rw [leaves_node]
          exact h.trans (Covers.flatMap fun row hrow =>
            TableRow.covers_node (soundList_of_rows? hsound hrows row hrow))
        rw [Fragment.coreOfList, Fragment.coreOfList, List.append_nil]
        exact hnodes.to_bare hs
      · cases htable
    · cases htable
  · exact h

end Table

end FormulaMarkup
