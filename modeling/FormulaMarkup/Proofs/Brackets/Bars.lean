import FormulaMarkup.Proofs.Brackets.Extent
import FormulaMarkup.Proofs.Token.Lookahead

/-!
# Bars come in pairs

A bar opens a group exactly if another one follows with only matched brackets in between. The first
such bar then closes the group, and a bar that none belongs to stands alone.
-/

namespace FormulaMarkup

namespace Brackets

/-- Every bracket has a partner. -/
structure Complete (b : Brackets) : Prop where
  unclosed : b.unclosed = []
  stray : b.stray = []

theorem complete_before {a rest : Brackets} (h : a.stray = []) :
    (a.before rest).Complete ↔ rest.Complete := by
  constructor
  · rintro ⟨hunclosed, hstray⟩
    exact ⟨hunclosed, (List.append_eq_nil_iff.1 hstray).2⟩
  · rintro ⟨hunclosed, hstray⟩
    exact ⟨hunclosed, List.append_eq_nil_iff.2 ⟨h, hstray⟩⟩

end Brackets

/-- All brackets among the lexemes are matched. -/
def Balanced (s : List Lexeme) : Prop := (Brackets.matched s).Complete

namespace Formula

/-- Notices tell of each bracket without a partner. -/
theorem balanced_of_notices_eq_nil {s : List Lexeme}
    (h : Term.noticesOfList (parse s) = []) : Balanced s := by
  have htells := Term.tellsList (parse s) 0
  rw [(parse_reads s).brackets_eq (by simp [Shallow, h]), h] at htells
  exact ⟨List.map_eq_nil_iff.1 htells.unclosed.symm, List.map_eq_nil_iff.1 htells.stray.symm⟩

variable {i depth : Nat} {pending : List (Nat × Word)} {u v s : List Lexeme} {word : Word}

/-- After brackets that are all matched a bar is seen. -/
theorem hasClosingBar_of_complete (role : word.role = .leftRight) (v : List Lexeme)
    (h : (Brackets.ofLexemes i pending u).Complete) :
    hasClosingBar pending.length (u ++ .symbol word :: v) = true ∧
      extent true pending.length (u ++ .symbol word :: v) ≤ u.length := by
  -- The brackets that are open are the stack of the matcher, so the scan is followed with any.
  induction u generalizing i pending with
  | nil =>
    obtain rfl : pending = [] := h.unclosed
    exact ⟨hasClosingBar_bar_zero role, Nat.le_of_eq (extent_bar_zero role)⟩
  | cons x u ih =>
    rw [List.cons_append, List.length_cons]
    rcases bracket_cases x with ⟨word', rfl, role'⟩ | ⟨word', rfl, role'⟩ | ⟨word', rfl, role'⟩ | hx
    · rw [Brackets.ofLexemes_open role'] at h
      rw [hasClosingBar_open role', extent_open role']
      exact ⟨(ih h).1, Nat.succ_le_succ (ih h).2⟩
    · cases pending with
      | nil =>
        rw [Brackets.ofLexemes_stray role'] at h
        cases h.stray
      | cons opening pending =>
        rw [Brackets.ofLexemes_close role', Brackets.complete_before rfl] at h
        rw [List.length_cons, hasClosingBar_close role', extent_close role']
        exact ⟨(ih h).1, Nat.succ_le_succ (ih h).2⟩
    · rw [Brackets.ofLexemes_plain (isPlain_bar role')] at h
      cases pending with
      | nil =>
        rw [List.length_nil, extent_bar_zero role']
        exact ⟨hasClosingBar_bar_zero role', Nat.zero_le _⟩
      | cons opening pending =>
        rw [List.length_cons, hasClosingBar_bar role' (Nat.succ_pos _),
          extent_bar role' fun _ => Nat.succ_pos _]
        exact ⟨(ih h).1, Nat.succ_le_succ (ih h).2⟩
    · rw [Brackets.ofLexemes_plain hx.plain] at h
      rw [hasClosingBar_inert hx, extent_inert hx]
      exact ⟨(ih h).1, Nat.succ_le_succ (ih h).2⟩

/-- In front of the bar that is seen all brackets are matched. -/
theorem complete_of_hasClosingBar (h : hasClosingBar depth s = true) :
    ∃ (u v : List Lexeme) (bar : WordOf .leftRight), s = u ++ .symbol bar.1 :: v ∧
      extent true depth s = u.length ∧
      ∀ i pending, pending.length = depth → (Brackets.ofLexemes i pending u).Complete := by
  induction s generalizing depth with
  | nil => cases h
  | cons x s ih =>
    rcases bracket_cases x with ⟨word, rfl, role⟩ | ⟨word, rfl, role⟩ | ⟨word, rfl, role⟩ | hx
    · rw [hasClosingBar_open role] at h
      obtain ⟨u, v, bar, rfl, hextent, hcomplete⟩ := ih h
      refine ⟨.symbol word :: u, v, bar, rfl, by simp [extent_open role, hextent], ?_⟩
      intro i pending hpending
      rw [Brackets.ofLexemes_open role]
      exact hcomplete _ _ (congrArg (· + 1) hpending)
    · cases depth with
      | zero =>
        have hrole : (Lexeme.symbol word).role? = some .closeBracket := congrArg some role
        rw [not_hasClosingBar_close hrole] at h
        cases h
      | succ depth =>
        rw [hasClosingBar_close role] at h
        obtain ⟨u, v, bar, rfl, hextent, hcomplete⟩ := ih h
        refine ⟨.symbol word :: u, v, bar, rfl, by simp [extent_close role, hextent], ?_⟩
        intro i pending hpending
        obtain ⟨opening, pending, rfl⟩ := List.exists_cons_of_length_eq_add_one hpending
        rw [Brackets.ofLexemes_close role, Brackets.complete_before rfl]
        exact hcomplete _ _ (Nat.succ.inj hpending)
    · cases depth with
      | zero =>
        refine ⟨[], s, ⟨word, role⟩, rfl, extent_bar_zero role, ?_⟩
        intro i pending hpending
        obtain rfl := List.eq_nil_of_length_eq_zero hpending
        exact ⟨rfl, rfl⟩
      | succ depth =>
        rw [hasClosingBar_bar role (Nat.succ_pos depth)] at h
        obtain ⟨u, v, bar, rfl, hextent, hcomplete⟩ := ih h
        refine ⟨.symbol word :: u, v, bar, rfl,
          by simp [extent_bar role fun _ => Nat.succ_pos depth, hextent], ?_⟩
        intro i pending hpending
        rw [Brackets.ofLexemes_plain (isPlain_bar role)]
        exact hcomplete _ _ hpending
    · rw [hasClosingBar_inert hx] at h
      obtain ⟨u, v, bar, rfl, hextent, hcomplete⟩ := ih h
      refine ⟨x :: u, v, bar, rfl, by simp [extent_inert hx, hextent], ?_⟩
      intro i pending hpending
      rw [Brackets.ofLexemes_plain hx.plain]
      exact hcomplete _ _ hpending

/-- The lexemes after a bar begin with `between` and a bar that belongs to it. -/
structure BarAfter (s between : List Lexeme) (bar : WordOf .leftRight) (left : List Lexeme) :
    Prop where
  eq : s = between ++ .symbol bar.1 :: left
  balanced : Balanced between

theorem hasClosingBar_iff :
    hasClosingBar 0 s = true ↔ ∃ between bar left, BarAfter s between bar left := by
  constructor
  · intro h
    obtain ⟨u, v, bar, hs, -, hcomplete⟩ := complete_of_hasClosingBar h
    exact ⟨u, bar, v, hs, hcomplete 0 [] rfl⟩
  · rintro ⟨u, bar, v, rfl, hbalanced⟩
    exact (hasClosingBar_of_complete bar.2 v hbalanced).1

/-- Of all bars that belong to the one before, `bar` is the first. -/
structure FirstBarAfter (s between : List Lexeme) (bar : WordOf .leftRight) (left : List Lexeme) :
    Prop extends BarAfter s between bar left where
  first : ∀ u bar' v, BarAfter s u bar' v → between.length ≤ u.length

theorem exists_firstBarAfter (h : hasClosingBar 0 s = true) :
    ∃ between bar left, FirstBarAfter s between bar left := by
  obtain ⟨u, v, bar, hs, hextent, hcomplete⟩ := complete_of_hasClosingBar h
  refine ⟨u, bar, v, ⟨hs, hcomplete 0 [] rfl⟩, fun u' bar' v' hbar => ?_⟩
  rw [← hextent, hbar.eq]
  exact (hasClosingBar_of_complete bar'.2 v' hbar.balanced).2

/-- The first bar closes the surroundings. -/
theorem FirstBarAfter.extent_eq {bar : WordOf .leftRight} (h : FirstBarAfter s u bar v) :
    extent true 0 s = u.length := by
  obtain ⟨hbar, hle⟩ : hasClosingBar 0 _ = true ∧ extent true 0 _ ≤ u.length :=
    hasClosingBar_of_complete bar.2 v h.balanced
  rw [← h.eq] at hbar hle
  obtain ⟨u', v', bar', hs, hextent, hcomplete⟩ := complete_of_hasClosingBar hbar
  have hge := h.first u' bar' v' ⟨hs, hcomplete 0 [] rfl⟩
  omega

variable {room : Nat} {inBar : Bool}

/-- A closed body whose extent is known is followed by what closes it. -/
theorem ReadsBody.closed_of_extent {terms : List Term} {l left : List Lexeme}
    {bar : WordOf .leftRight} {closing : Option (WordOf .leftRight)}
    (content : ReadsBody room true true (u ++ .symbol bar.1 :: v) terms l)
    (close : ReadsClosing .leftRight l closing left)
    (hextent : extent true 0 (u ++ .symbol bar.1 :: v) = u.length)
    (hplaces : ∀ place ∈ Term.limitPlacesOfList terms 1, u.length < place) :
    Term.yieldOfList terms = u ∧ closing = some bar ∧ left = v := by
  have hspans := content.spans 1 true 0 (fun _ => .inl rfl) fun place hp => by
    have hplace := hplaces place hp
    omega
  rw [extent_of_bodyEnds content.left_ends, hextent] at hspans
  obtain ⟨hbody, rfl⟩ := List.append_inj content.yield_append hspans.symm
  refine ⟨hbody, ?_⟩
  have hclose := close.gives
  rw [Parsed.Gives, parseClosing, dif_pos bar.2] at hclose
  exact ⟨hclose.1.symm, hclose.2.symm⟩

/-- The content of bars is what stands in front of the first bar that belongs to the opening one. -/
theorem parseBars_of_first {bar : WordOf .leftRight} (role : word.role = .leftRight)
    (hbar : FirstBarAfter s u bar v)
    (hplaces : ∀ place ∈ (parseBars (parseOperand room) room word role s).value.limitPlaces 0,
      u.length < place) :
    ∃ body, Term.yieldOfList body = u ∧
      (parseBars (parseOperand room) room word role s).Gives (.bars word role body (some bar))
        v := by
  have hextent := hbar.extent_eq
  have paired : hasClosingBar 0 s = true := hasClosingBar_iff.2 ⟨u, bar, v, hbar.toBarAfter⟩
  have content : ReadsBody room true true s _ _ := parseBody_reads (parseOperand_reads room) true s
  have close := parseClosing_reads .leftRight (parseBody (parseOperand room) room true true s).left
  rw [parseBars, if_pos paired] at hplaces ⊢
  obtain ⟨⟨rfl, -⟩, -⟩ := hbar
  obtain ⟨hbody, hclosing, hleft⟩ := content.closed_of_extent close hextent hplaces
  exact ⟨_, hbody, congrArg (Operand.bars word role _) hclosing, hleft⟩

theorem parseOperand_bar (role : word.role = .leftRight) :
    parseOperand (room + 1) inBar (.symbol word) s =
      parseBars (parseOperand room) room word role s := by
  rw [parseOperand_nested (by rw [role]; rfl), parseNested_bars _ role]

theorem parseBars_alone (role : word.role = .leftRight) (alone : hasClosingBar 0 s = false) :
    (parseBars (parseOperand room) room word role s).Gives (.loneBar word role) s := by
  rw [parseBars, if_neg (by rw [alone]; nofun)]
  exact ⟨rfl, rfl⟩

/-- The search for a closing bar tells what is read. It finds one if a bar follows with only matched
brackets in between; then the first such bar closes the group, unless a level in front of it is too
deep. If it finds none, nothing but the bar is taken. -/
theorem parseOperand_hasClosingBar (opening : WordOf .leftRight) (ahead : Lookahead) (room : Nat)
    (inBar : Bool) :
    let s := ahead.remaining.map (·.lexeme)
    let parsed := parseOperand (room + 1) inBar (.symbol opening.1) s
    (ahead.hasClosingBar.1 = true ↔ ∃ between bar left, BarAfter s between bar left) ∧
    (ahead.hasClosingBar.1 = false → parsed.Gives (.loneBar opening.1 opening.2) s) ∧
    (ahead.hasClosingBar.1 = true → ∃ between bar left, FirstBarAfter s between bar left ∧
      ((∀ place ∈ parsed.value.limitPlaces 0, between.length < place) →
        ∃ body, Term.yieldOfList body = between ∧
          parsed.Gives (.bars opening.1 opening.2 body (some bar)) left)) := by
  intro s parsed
  have hparsed : parsed = parseBars (parseOperand room) room opening.1 opening.2 s :=
    parseOperand_bar opening.2
  rw [hparsed, Lookahead.hasClosingBar_eq]
  refine ⟨hasClosingBar_iff, parseBars_alone opening.2, fun h => ?_⟩
  obtain ⟨between, bar, left, hbar⟩ := exists_firstBarAfter h
  exact ⟨between, bar, left, hbar, parseBars_of_first opening.2 hbar⟩

/-- The bar in the parentheses is passed over, and the one after them closes. -/
theorem parseOperand_hasClosingBar_parentheses :
    let ahead := Lookahead.ofInput "(|)| w"
    let s := ahead.remaining.map (·.lexeme)
    let opening : WordOf .leftRight := ⟨⟨"|", .bar "|", by decide +kernel⟩, rfl⟩
    ahead.hasClosingBar.1 = true ∧
      ∃ between bar body, FirstBarAfter s between bar [.character 'w'] ∧
        (parseOperand maxDepth false (.symbol opening.1) s).Gives
          (.bars opening.1 opening.2 body (some bar)) [.character 'w'] := by
  intro ahead s opening
  obtain ⟨hclosing, hleft, hplaces⟩ : ahead.hasClosingBar.1 = true ∧
      (parseOperand maxDepth false (.symbol opening.1) s).left = [.character 'w'] ∧
      (parseOperand maxDepth false (.symbol opening.1) s).value.limitPlaces 0 = [] := by
    decide +kernel
  obtain ⟨between, bar, left, hbar, hread⟩ :=
    (parseOperand_hasClosingBar opening ahead 127 false).2.2 hclosing
  obtain ⟨body, -, hgives⟩ := hread fun place hplace =>
    absurd hplace (List.eq_nil_iff_forall_not_mem.1 hplaces place)
  obtain rfl : left = [.character 'w'] := hgives.2.symm.trans hleft
  exact ⟨hclosing, between, bar, body, hbar, hgives⟩

end Formula

end FormulaMarkup
