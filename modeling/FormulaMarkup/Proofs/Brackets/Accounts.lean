import FormulaMarkup.Proofs.Brackets.Tree
import FormulaMarkup.Proofs.Grammar.Yield

/-!
# The groups of a formula are its matched brackets

While a part of a formula is read, the stack holds what is open around the part, and the part
touches none of it: what it opens it closes, unless the input ends, and where a group is open nothing
but the group takes a closing bracket. A bar that has been announced is still there after a part
between the bars, so bars always come in pairs.
-/

namespace FormulaMarkup.Formula

/-! ## The invariant -/

/-- From `s` at place `i` to `left` at place `j`, a part of a formula accounts for the brackets `b`.
A guarded part does not begin with what closes the group around it. -/
structure Accounts (inBar guarded : Bool) (i : Nat) (s : List Lexeme) (b : Brackets) (j : Nat)
    (left : List Lexeme) : Prop where
  matched : ∀ pending, b.stray = [] ∨ pending = [] →
    Brackets.ofLexemes i pending s = b.before (.ofLexemes j (b.unclosed ++ pending) left)
  ends : s = [] → left = []
  atEnd : b.unclosed ≠ [] → left = []
  noStray : guarded = true → b.stray = []
  bars : guarded = true → ∀ depth, inBar = true ∨ 0 < depth → hasClosingBar depth s = true →
    hasClosingBar depth left = true

/-- The lexeme is neither a bracket nor a bar. -/
structure Inert (x : Lexeme) : Prop where
  plain : Brackets.IsPlain x
  noBar : x.role? ≠ some .leftRight

theorem isPlain_bar {word : Word} (role : word.role = .leftRight) :
    Brackets.IsPlain (.symbol word) := by
  have hrole : (Lexeme.symbol word).role? = some .leftRight := congrArg some role
  exact ⟨by simp [hrole], by simp [hrole]⟩

/-- A word of a kind that neither brackets nor bars are of. -/
theorem inert_word {word : Word} (kind : Role → Bool) (h : kind word.role = true)
    (hopen : kind .openBracket = false) (hclose : kind .closeBracket = false)
    (hbar : kind .leftRight = false) : Inert (.symbol word) := by
  have hne : ∀ role, kind role = false → (Lexeme.symbol word).role? ≠ some role := by
    intro role hkind hrole
    have hword : word.role = role := Option.some.inj hrole
    rw [hword, hkind] at h
    cases h
  exact ⟨⟨hne _ hopen, hne _ hclose⟩, hne _ hbar⟩

theorem inert_of_role {word : Word} {role : Role} (h : word.role = role)
    (hopen : role ≠ .openBracket) (hclose : role ≠ .closeBracket) (hbar : role ≠ .leftRight) :
    Inert (.symbol word) :=
  inert_word (· = role) (by simpa using h) (by simpa using hopen.symm) (by simpa using hclose.symm)
    (by simpa using hbar.symm)

theorem inert_marker (marker : Marker) : Inert (.symbol marker.word) := by
  have role : marker.word.role = .operator := by cases marker <;> rfl
  exact inert_of_role role nofun nofun nofun

theorem inert_slash : Inert (.symbol .slash) := by
  have role : Word.slash.role = .operator := rfl
  exact inert_of_role role nofun nofun nofun

theorem inert_of_symbol? {x : Lexeme} (h : x.symbol? = none) : Inert x := by
  have hrole : x.role? = none := by rw [Lexeme.role?, h]; rfl
  exact ⟨⟨by simp [hrole], by simp [hrole]⟩, by simp [hrole]⟩

theorem hasClosingBar_inert {x : Lexeme} (h : Inert x) (depth : Nat) (s : List Lexeme) :
    hasClosingBar depth (x :: s) = hasClosingBar depth s := by
  rw [hasClosingBar.eq_def]
  simp only
  split
  · next role => exact absurd role h.plain.1
  · next role => exact absurd role h.plain.2
  · next role => exact absurd role h.noBar
  · rfl

theorem hasClosingBar_open {word : Word} (role : word.role = .openBracket) (depth : Nat)
    (s : List Lexeme) :
    hasClosingBar depth (.symbol word :: s) = hasClosingBar (depth + 1) s := by
  have hrole : (Lexeme.symbol word).role? = some .openBracket := congrArg some role
  simp [hasClosingBar, hrole]

theorem hasClosingBar_close {word : Word} (role : word.role = .closeBracket) (depth : Nat)
    (s : List Lexeme) :
    hasClosingBar (depth + 1) (.symbol word :: s) = hasClosingBar depth s := by
  have hrole : (Lexeme.symbol word).role? = some .closeBracket := congrArg some role
  simp [hasClosingBar, hrole]

/-- Inside brackets a bar is passed over. -/
theorem hasClosingBar_bar {word : Word} (role : word.role = .leftRight) {depth : Nat}
    (hdepth : 0 < depth) (s : List Lexeme) :
    hasClosingBar depth (.symbol word :: s) = hasClosingBar depth s := by
  have hrole : (Lexeme.symbol word).role? = some .leftRight := congrArg some role
  obtain ⟨n, rfl⟩ := Nat.exists_eq_add_one.2 hdepth
  simp [hasClosingBar, hrole]

namespace Accounts

variable {inBar guarded : Bool} {i j k : Nat} {s l left : List Lexeme} {b b' : Brackets}

theorem refl (inBar guarded : Bool) (i : Nat) (s : List Lexeme) :
    Accounts inBar guarded i s .empty i s where
  matched _ _ := rfl
  ends h := h
  atEnd h := absurd rfl h
  noStray _ := rfl
  bars _ _ _ h := h

theorem cast (h : Accounts inBar guarded i s b j left) (hjk : j = k) :
    Accounts inBar guarded i s b k left :=
  hjk ▸ h

/-- Nothing is accounted for at the end of the input. -/
theorem eq_empty (h : Accounts inBar guarded i [] b j left) : b = .empty := by
  have hmatched := h.matched [] (.inr rfl)
  simp only [Brackets.ofLexemes, Brackets.before, List.append_nil, Brackets.mk.injEq] at hmatched
  obtain ⟨hpairs, hunclosed, hstray⟩ := hmatched
  have hopen : b.unclosed = [] := by
    by_cases hb : b.unclosed = []
    · exact hb
    · rw [h.ends rfl] at hunclosed
      exact hunclosed.symm
  obtain ⟨hpairs, -⟩ := List.append_eq_nil_iff.1 hpairs.symm
  obtain ⟨hstray, -⟩ := List.append_eq_nil_iff.1 hstray.symm
  exact Brackets.ext hpairs hopen hstray

theorem unclosed_eq_nil (h : Accounts inBar guarded i s b j left) (hleft : left ≠ []) :
    b.unclosed = [] := by
  cases hb : b.unclosed with
  | nil => rfl
  | cons opening more => exact absurd (h.atEnd (by rw [hb]; exact List.cons_ne_nil _ _)) hleft

theorem seq (h : Accounts inBar guarded i s b j l) (h' : Accounts inBar guarded j l b' k left) :
    Accounts inBar guarded i s (b.seq b') k left where
  matched := by
    intro pending hpending
    have hfirst : b.stray = [] ∨ pending = [] :=
      hpending.imp_left fun hstray => (List.append_eq_nil_iff.1 hstray).1
    rw [h.matched pending hfirst]
    by_cases hopen : b.unclosed = []
    · have hsecond : b'.stray = [] ∨ pending = [] :=
        hpending.imp_left fun hstray => (List.append_eq_nil_iff.1 hstray).2
      rw [hopen, List.nil_append, h'.matched pending hsecond]
      simp [Brackets.before, Brackets.seq, hopen]
    · have hl := h.atEnd hopen
      subst hl
      have hempty := h'.eq_empty
      subst hempty
      rw [h'.matched _ (.inl rfl)]
      simp [Brackets.before, Brackets.seq, Brackets.empty]
  ends hs := h'.ends (h.ends hs)
  atEnd := by
    intro hopen
    by_cases hb : b.unclosed = []
    · exact h'.atEnd fun hb' => hopen (by simp [Brackets.seq, hb, hb'])
    · exact h'.ends (h.atEnd hb)
  noStray hg := by simp [Brackets.seq, h.noStray hg, h'.noStray hg]
  bars hg depth hdepth hbar := h'.bars hg depth hdepth (h.bars hg depth hdepth hbar)

/-- A lexeme that is neither a bracket nor a bar does not count. -/
theorem cons {x : Lexeme} (hx : Inert x) (h : Accounts inBar guarded (i + 1) s b j left) :
    Accounts inBar guarded i (x :: s) b j left where
  matched pending hpending := (Brackets.ofLexemes_plain hx.plain).trans (h.matched pending hpending)
  ends := nofun
  atEnd := h.atEnd
  noStray := h.noStray
  bars hg depth hdepth hbar := h.bars hg depth hdepth (by rwa [hasClosingBar_inert hx] at hbar)

theorem stray {word : Word} (role : word.role = .closeBracket) :
    Accounts inBar false i (.symbol word :: s) ⟨[], [], [(i, word)]⟩ (i + 1) s where
  matched pending hpending := by
    have hnil : pending = [] := hpending.resolve_left nofun
    rw [hnil, Brackets.ofLexemes_stray role]
    rfl
  ends := nofun
  atEnd := fun h => absurd rfl h
  noStray := nofun
  bars := nofun

theorem closedGroup {word word' : Word} (role : word.role = .openBracket)
    (role' : word'.role = .closeBracket)
    (h : Accounts false true (i + 1) s b j (.symbol word' :: left)) :
    Accounts inBar guarded i (.symbol word :: s) (b.seq ⟨[(i, j)], [], []⟩) (j + 1) left where
  matched pending _ := by
    have hopen := h.unclosed_eq_nil (List.cons_ne_nil _ _)
    rw [Brackets.ofLexemes_open role, h.matched _ (.inl (h.noStray rfl)), hopen, List.nil_append,
      Brackets.ofLexemes_close role']
    simp [Brackets.before, Brackets.seq, hopen]
  ends := nofun
  atEnd hopen := by
    simp [Brackets.seq, h.unclosed_eq_nil (List.cons_ne_nil _ _)] at hopen
  noStray _ := by simp [Brackets.seq, h.noStray rfl]
  bars _ depth _ hbar := by
    rw [hasClosingBar_open role] at hbar
    have hafter := h.bars rfl (depth + 1) (.inr (Nat.succ_pos depth)) hbar
    rwa [hasClosingBar_close role'] at hafter

theorem openGroup {word : Word} (role : word.role = .openBracket)
    (h : Accounts false true (i + 1) s b j []) :
    Accounts inBar guarded i (.symbol word :: s) (b.seq ⟨[], [(i, word)], []⟩) j [] where
  matched pending _ := by
    rw [Brackets.ofLexemes_open role, h.matched _ (.inl (h.noStray rfl))]
    simp [Brackets.before, Brackets.seq]
  ends _ := rfl
  atEnd _ := rfl
  noStray _ := by simp [Brackets.seq, h.noStray rfl]
  bars _ depth _ hbar := by
    rw [hasClosingBar_open role] at hbar
    cases h.bars rfl (depth + 1) (.inr (Nat.succ_pos depth)) hbar

theorem loneBar {word : Word} (role : word.role = .leftRight)
    (hg : guarded = true → inBar = false) :
    Accounts inBar guarded i (.symbol word :: s) .empty (i + 1) s where
  matched pending _ := Brackets.ofLexemes_plain (isPlain_bar role)
  ends := nofun
  atEnd := fun h => absurd rfl h
  noStray _ := rfl
  bars hguarded depth hdepth hbar := by
    have hpos := hdepth.resolve_left (by rw [hg hguarded]; decide)
    rwa [hasClosingBar_bar role hpos] at hbar

theorem closedBars {word word' : Word} (role : word.role = .leftRight)
    (role' : word'.role = .leftRight) (hg : guarded = true → inBar = false)
    (h : Accounts true true (i + 1) s b j (.symbol word' :: left)) :
    Accounts inBar guarded i (.symbol word :: s) (b.seq .empty) (j + 1) left where
  matched pending _ := by
    have hopen := h.unclosed_eq_nil (List.cons_ne_nil _ _)
    rw [Brackets.ofLexemes_plain (isPlain_bar role), h.matched _ (.inl (h.noStray rfl)),
      Brackets.ofLexemes_plain (isPlain_bar role')]
    simp [Brackets.before, Brackets.seq, Brackets.empty, hopen]
  ends := nofun
  atEnd hopen := by
    simp [Brackets.seq, Brackets.empty, h.unclosed_eq_nil (List.cons_ne_nil _ _)] at hopen
  noStray _ := by simp [Brackets.seq, Brackets.empty, h.noStray rfl]
  bars hguarded depth hdepth hbar := by
    have hpos := hdepth.resolve_left (by rw [hg hguarded]; decide)
    rw [hasClosingBar_bar role hpos] at hbar
    have hafter := h.bars rfl depth (.inr hpos) hbar
    rwa [hasClosingBar_bar role' hpos] at hafter

end Accounts

end FormulaMarkup.Formula
