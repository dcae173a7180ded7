import FormulaMarkup.Proofs.Brackets.Groups

/-!
# How far the content of a group goes

The content of a group ends before the first bracket that closes more than the content opens or,
between bars, before the first bar outside all brackets. A part of the content is read without going
beyond that place, whatever functions, scripts, groups and bars it is made of, as long as no level
in front of the place is too deep.
-/

namespace FormulaMarkup

mutual

/-- The places at which an operand has a word that would begin too deep a level. The first lexeme of
the operand is at place `i`. -/
def Operand.limitPlaces : Operand → (i : Nat) → List Nat
  | .number _, _ | .text _, _ | .character _, _ | .leaf .., _ | .keyword .., _ | .strayClosing .., _
  | .loneBar .., _ | .noArgument .., _ | .verbatim .., _ => []
  | .beyondLimit .., i => [i]
  | .group _ _ body _, i | .bars _ _ body _, i => Term.limitPlacesOfList body (i + 1)
  | .function _ _ scripts argument, i =>
    scripts.limitPlaces (i + 1) ++ argument.limitPlaces (i + 1 + scripts.yield.length)
  | .functionAlone _ _ scripts, i => scripts.limitPlaces (i + 1)
  | .unary _ _ _ argument, i => argument.limitPlaces (i + 1)
  | .noSecond _ _ _ first, i => first.limitPlaces (i + 1)
  | .binary _ _ _ first second, i =>
    first.limitPlaces (i + 1) ++ second.limitPlaces (i + 1 + first.yield.length)

def Scripts.limitPlaces : Scripts → (i : Nat) → List Nat
  | .done _, _ => []
  | .cons _ operand more, i =>
    operand.limitPlaces (i + 1) ++ more.limitPlaces (i + 1 + operand.yield.length)

def Term.limitPlaces : Term → (i : Nat) → List Nat
  | .scripted base scripts, i | .noDenominator base scripts, i =>
    base.limitPlaces i ++ scripts.limitPlaces (i + base.yield.length)
  | .fraction base scripts base' scripts', i =>
    let j := i + base.yield.length + scripts.yield.length + 1
    base.limitPlaces i ++ (scripts.limitPlaces (i + base.yield.length) ++
      (base'.limitPlaces j ++ scripts'.limitPlaces (j + base'.yield.length)))

def Term.limitPlacesOfList : List Term → (i : Nat) → List Nat
  | [], _ => []
  | term :: terms, i => term.limitPlaces i ++ Term.limitPlacesOfList terms (i + term.yield.length)

end

namespace Formula

/-- How many lexemes stand before what closes the surroundings, if `depth` brackets are open inside
of them. Between bars, a bar closes the surroundings too. -/
def extent (inBar : Bool) (depth : Nat) : List Lexeme → Nat
  | [] => 0
  | x :: s =>
    match x.role?, depth with
    | some .openBracket, depth => extent inBar (depth + 1) s + 1
    | some .closeBracket, 0 => 0
    | some .closeBracket, depth + 1 => extent inBar depth s + 1
    | some .leftRight, 0 => if inBar then 0 else extent inBar 0 s + 1
    | _, depth => extent inBar depth s + 1

/-! ## One lexeme -/

variable {inBar : Bool} {depth : Nat} {word : Word} {x : Lexeme} {s : List Lexeme}

/-- A lexeme is an opening or a closing bracket or a bar, or none of them. -/
theorem bracket_cases (x : Lexeme) :
    (∃ word, x = .symbol word ∧ word.role = .openBracket) ∨
      (∃ word, x = .symbol word ∧ word.role = .closeBracket) ∨
      (∃ word, x = .symbol word ∧ word.role = .leftRight) ∨ Inert x := by
  cases x with
  | symbol word =>
    cases role : word.role with
    | openBracket => exact .inl ⟨word, rfl, role⟩
    | closeBracket => exact .inr (.inl ⟨word, rfl, role⟩)
    | leftRight => exact .inr (.inr (.inl ⟨word, rfl, role⟩))
    | _ => exact .inr (.inr (.inr (inert_of_role role (by simp) (by simp) (by simp))))
  | _ => exact .inr (.inr (.inr (inert_of_symbol? rfl)))

theorem extent_inert (h : Inert x) : extent inBar depth (x :: s) = extent inBar depth s + 1 := by
  rw [extent.eq_def]
  simp only
  split
  · next role => exact absurd role h.plain.1
  · next role => exact absurd role h.plain.2
  · next role => exact absurd role h.plain.2
  · next role => exact absurd role h.noBar
  · rfl

theorem extent_open (role : word.role = .openBracket) :
    extent inBar depth (.symbol word :: s) = extent inBar (depth + 1) s + 1 := by
  simp [extent, Lexeme.role?_symbol, role]

theorem extent_close (role : word.role = .closeBracket) :
    extent inBar (depth + 1) (.symbol word :: s) = extent inBar depth s + 1 := by
  simp [extent, Lexeme.role?_symbol, role]

theorem extent_close_zero (role : word.role = .closeBracket) :
    extent inBar 0 (.symbol word :: s) = 0 := by
  simp [extent, Lexeme.role?_symbol, role]

theorem extent_bar_zero (role : word.role = .leftRight) :
    extent true 0 (.symbol word :: s) = 0 := by
  simp [extent, Lexeme.role?_symbol, role]

/-- A bar inside brackets does not count, and none does outside of bars. -/
theorem extent_bar (role : word.role = .leftRight) (h : inBar = true → 0 < depth) :
    extent inBar depth (.symbol word :: s) = extent inBar depth s + 1 := by
  cases depth with
  | zero =>
    have hbar : inBar = false := by simpa using h
    simp [extent, Lexeme.role?_symbol, role, hbar]
  | succ depth => simp [extent, Lexeme.role?_symbol, role]

/-- What can be an operand closes nothing. -/
theorem extent_pos {bars : Bool} (h : atOperandEnd inBar s = false)
    (hbars : bars = true → inBar = true ∨ 0 < depth) : 0 < extent bars depth s := by
  cases s with
  | nil => cases h
  | cons x s =>
    rcases bracket_cases x with ⟨word, rfl, role⟩ | ⟨word, rfl, role⟩ | ⟨word, rfl, role⟩ | hx
    · rw [extent_open role]
      exact Nat.succ_pos _
    · rw [atOperandEnd_close role] at h
      cases h
    · have hinBar := inBar_of_guarded role (fun _ => h) rfl
      rw [extent_bar role fun hb => (hbars hb).resolve_left (by rw [hinBar]; decide)]
      exact Nat.succ_pos _
    · rw [extent_inert hx]
      exact Nat.succ_pos _

/-- Between bars the surroundings end the sooner, and the sooner, the fewer brackets are open. -/
theorem extent_true_le (inBar : Bool) {depth more : Nat} (h : depth ≤ more) :
    extent true depth s ≤ extent inBar more s := by
  induction s generalizing depth more with
  | nil => exact Nat.le_refl 0
  | cons x s ih =>
    rcases bracket_cases x with ⟨word, rfl, role⟩ | ⟨word, rfl, role⟩ | ⟨word, rfl, role⟩ | hx
    · rw [extent_open role, extent_open role]
      exact Nat.succ_le_succ (ih (Nat.succ_le_succ h))
    · cases depth with
      | zero => rw [extent_close_zero role]; exact Nat.zero_le _
      | succ depth =>
        obtain ⟨more, rfl⟩ := Nat.exists_eq_add_one.2 (Nat.lt_of_lt_of_le (Nat.succ_pos depth) h)
        rw [extent_close role, extent_close role]
        exact Nat.succ_le_succ (ih (Nat.le_of_succ_le_succ h))
    · cases depth with
      | zero => rw [extent_bar_zero role]; exact Nat.zero_le _
      | succ depth =>
        rw [extent_bar role fun _ => Nat.succ_pos depth,
          extent_bar role fun _ => Nat.lt_of_lt_of_le (Nat.succ_pos depth) h]
        exact Nat.succ_le_succ (ih h)
    · rw [extent_inert hx, extent_inert hx]
      exact Nat.succ_le_succ (ih h)

theorem hasClosingBar_bar_zero (role : word.role = .leftRight) :
    hasClosingBar 0 (.symbol word :: s) = true := by
  simp [hasClosingBar, Lexeme.role?_symbol, role]

/-- If a bar follows that belongs to one before, it is the bar that closes the surroundings. -/
theorem bar_of_hasClosingBar (h : hasClosingBar depth s = true) :
    ∃ x ∈ (s.drop (extent true depth s)).head?, x.role? = some .leftRight := by
  induction s generalizing depth with
  | nil => cases h
  | cons x s ih =>
    rcases bracket_cases x with ⟨word, rfl, role⟩ | ⟨word, rfl, role⟩ | ⟨word, rfl, role⟩ | hx
    · rw [hasClosingBar_open role] at h
      simpa [extent_open role] using ih h
    · cases depth with
      | zero =>
        have hrole : (Lexeme.symbol word).role? = some .closeBracket := congrArg some role
        rw [not_hasClosingBar_close hrole] at h
        cases h
      | succ depth =>
        rw [hasClosingBar_close role] at h
        simpa [extent_close role] using ih h
    · cases depth with
      | zero => exact ⟨.symbol word, by simp [extent_bar_zero role], congrArg some role⟩
      | succ depth =>
        rw [hasClosingBar_bar role (Nat.succ_pos depth)] at h
        simpa [extent_bar role fun _ => Nat.succ_pos depth] using ih h
    · rw [hasClosingBar_inert hx] at h
      simpa [extent_inert hx] using ih h

/-! ## The invariant -/

/-- From `s` at place `i` a part of `n` lexemes reaches to `left`. Unless a level at one of the
`places` is too deep, the part ends before whatever closes the surroundings. -/
def Spans (inBar : Bool) (i : Nat) (s : List Lexeme) (places : List Nat) (n : Nat)
    (left : List Lexeme) : Prop :=
  ∀ bars depth, (bars = true → inBar = true ∨ 0 < depth) →
    (∀ place ∈ places, i + extent bars depth s ≤ place) →
    extent bars depth s = n + extent bars depth left

namespace Spans

variable {i n m : Nat} {l left : List Lexeme} {places places' : List Nat}

theorem refl (inBar : Bool) (i : Nat) (s : List Lexeme) : Spans inBar i s [] 0 s :=
  fun _ _ _ _ => (Nat.zero_add _).symm

theorem cast (h : Spans inBar i s places n left) (hnm : n = m) : Spans inBar i s places m left :=
  hnm ▸ h

theorem seq (h : Spans inBar i s places n l) (h' : Spans inBar (i + n) l places' m left) :
    Spans inBar i s (places ++ places') (n + m) left := by
  intro bars depth hbars hplaces
  have hfirst := h bars depth hbars fun place hp => hplaces place (List.mem_append_left _ hp)
  have hsecond := h' bars depth hbars fun place hp => by
    have hplace := hplaces place (List.mem_append_right _ hp)
    omega
  omega

theorem cons (hx : Inert x) (h : Spans inBar (i + 1) s places n left) :
    Spans inBar i (x :: s) places (n + 1) left := by
  intro bars depth hbars hplaces
  rw [extent_inert hx] at hplaces ⊢
  have hmore := h bars depth hbars fun place hp => by
    have hplace := hplaces place hp
    omega
  omega

theorem openGroup (role : word.role = .openBracket)
    (h : Spans false (i + 1) s places n left) {m : Nat}
    (hleft : ∀ bars depth, extent bars (depth + 1) left = m + extent bars depth l) :
    Spans inBar i (.symbol word :: s) places (n + m + 1) l := by
  intro bars depth hbars hplaces
  rw [extent_open role] at hplaces ⊢
  have hmore := h bars (depth + 1) (fun _ => .inr (Nat.succ_pos depth)) fun place hp => by
    have hplace := hplaces place hp
    omega
  have hclosing := hleft bars depth
  omega

theorem beyondLimit (h : atOperandEnd inBar (x :: s) = false) : Spans inBar i (x :: s) [i] 1 s := by
  intro bars depth hbars hplaces
  have hpos := extent_pos h hbars
  have hplace := hplaces i List.mem_cons_self
  omega

theorem loneBar (role : word.role = .leftRight) :
    Spans false i (.symbol word :: s) [] 1 s := by
  intro bars depth hbars _
  rw [extent_bar role fun h => (hbars h).resolve_left nofun]
  omega

/-- A bar that is announced ends what is between the bars. -/
theorem bars (role : word.role = .leftRight) (paired : hasClosingBar 0 s = true)
    (h : Spans true (i + 1) s places n l) (hl : extent true 0 l = 0) (hs : s.drop n = l)
    {closing : Option (WordOf .leftRight)} (close : ReadsClosing .leftRight l closing left) :
    Spans false i (.symbol word :: s) places (n + (Word.closingYield closing).length + 1) left := by
  intro bars depth hbars hplaces
  have hpos : bars = true → 0 < depth := fun h => (hbars h).resolve_left nofun
  rw [extent_bar role hpos] at hplaces ⊢
  have hinner := h true 0 (fun _ => .inl rfl) fun place hp => by
    have hplace := hplaces place hp
    have hle := extent_true_le (s := s) bars (Nat.zero_le depth)
    omega
  have houter := h bars depth (fun _ => .inl rfl) fun place hp => by
    have hplace := hplaces place hp
    omega
  -- The content goes up to the bar that was announced, so no other lexeme can follow it.
  obtain ⟨x, hx, hrole⟩ := bar_of_hasClosingBar paired
  rw [hinner, hl, Nat.add_zero, hs] at hx
  cases close with
  | closed word' =>
    have hlast := extent_bar (s := left) word'.2 hpos
    simp only [Word.closingYield, List.length_singleton]
    omega
  | unclosed next => exact absurd hrole (next x hx)

end Spans

/-! ## Parts of formulas -/

/-- Where the content of a group ends, the surroundings are closed. -/
theorem extent_of_bodyEnds (h : bodyEnds inBar true s = true) : extent inBar 0 s = 0 := by
  cases s with
  | nil => rfl
  | cons x s =>
    rcases closes_of_bodyEnds h with role | ⟨role, rfl⟩
    · simp [extent, role]
    · simp [extent, role]

theorem drop_yield (h : ReadsBody room inBar inGroup s terms left) :
    s.drop (Term.yieldOfList terms).length = left := by
  rw [← h.yield_append, List.drop_left]

mutual

theorem ReadsOperand.spans {room inBar s operand left} :
    ReadsOperand room inBar s operand left → atOperandEnd inBar s = false → (i : Nat) →
      Spans inBar i s (operand.limitPlaces i) operand.yield.length left
  | .number n, _, _ => (Spans.refl _ _ _).cons (inert_of_symbol? rfl)
  | .text body, _, _ => (Spans.refl _ _ _).cons (inert_of_symbol? rfl)
  | .character c, _, _ => (Spans.refl _ _ _).cons (inert_of_symbol? rfl)
  | .leaf word role, _, _ => (Spans.refl _ _ _).cons (inert_word Role.isLeaf role rfl rfl rfl)
  | .keyword word role, _, _ => (Spans.refl _ _ _).cons (inert_of_role role nofun nofun nofun)
  | .strayClosing word role, hg, _ => by
    rw [atOperandEnd_close role] at hg
    cases hg
  | .beyondLimit word role, hg, i => .beyondLimit hg
  | .group word role content close, _, i => by
    have hcontent := content.spans (i + 1)
    cases close with
    | closed word' =>
      have hclose : ∀ bars depth, extent bars (depth + 1) (.symbol word'.1 :: left) =
          1 + extent bars depth left :=
        fun bars depth => by rw [extent_close word'.2, Nat.add_comm]
      exact (hcontent.openGroup role hclose).cast (by simp [Operand.yield, Word.closingYield])
    | unclosed next =>
      -- Only the end of the input leaves a group open.
      obtain rfl := ReadsClosing.nil_of_unclosed content next
      exact (hcontent.openGroup role fun bars depth => (Nat.zero_add _).symm).cast
        (by simp [Operand.yield, Word.closingYield])
  | .loneBar word role _, hg, _ => by
    obtain rfl := inBar_of_guarded role (fun _ => hg) rfl
    exact .loneBar role
  | .bars word role paired content close, hg, i => by
    obtain rfl := inBar_of_guarded role (fun _ => hg) rfl
    exact (Spans.bars role paired (content.spans (i + 1)) (extent_of_bodyEnds content.left_ends)
      (drop_yield content) close).cast (by simp [Operand.yield])
  | .function word role first more second, _, i => by
    have hname : Inert (.symbol word) := inert_of_role role nofun nofun nofun
    exact (((first.spans (i + 1)).seq (second.spans more _)).cons hname).cast
      (by simp +arith [Operand.yield])
  | .functionAlone word role first _, _, i =>
    ((first.spans (i + 1)).cons (inert_of_role role nofun nofun nofun)).cast
      (by simp +arith [Operand.yield])
  | .noArgument word role _, _, _ =>
    (Spans.refl _ _ _).cons (inert_word Role.isCall role rfl rfl rfl)
  | .verbatim word role body, _, _ =>
    ((Spans.refl _ _ _).cons (inert_of_symbol? rfl)).cons
      (inert_of_role role nofun nofun nofun)
  | .unary word kind role more _ first, _, i =>
    ((first.spans more (i + 1)).cons (inert_of_role role nofun nofun nofun)).cast
      (by simp +arith [Operand.yield])
  | .noSecond word order role more first _, _, i =>
    ((first.spans more (i + 1)).cons (inert_of_role role nofun nofun nofun)).cast
      (by simp +arith [Operand.yield])
  | .binary word order role more first more' second, _, i => by
    have hname : Inert (.symbol word) := inert_of_role role nofun nofun nofun
    exact (((first.spans more (i + 1)).seq (second.spans more' _)).cons hname).cast
      (by simp +arith [Operand.yield])

theorem ReadsScripts.spans {room inBar slots s scripts left} :
    ReadsScripts room inBar slots s scripts left → (i : Nat) →
      Spans inBar i s (scripts.limitPlaces i) scripts.yield.length left
  | .complete _, _ => .refl _ _ _
  | .noOperand _ _, _ => .refl _ _ _
  | .limit _ _ _, _ => .refl _ _ _
  | .cons marker more _ first rest, i =>
    (((first.spans more (i + 1)).seq (rest.spans _)).cons (inert_marker marker)).cast
      (by simp +arith [Scripts.yield])

theorem ReadsTerm.spans {room inBar s term left} :
    ReadsTerm room inBar s term left → atOperandEnd inBar s = false → (i : Nat) →
      Spans inBar i s (term.limitPlaces i) term.yield.length left
  | .scripted first second _, hg, i =>
    ((first.spans hg i).seq (second.spans _)).cast (by simp +arith [Term.yield])
  | .noDenominator first second _, hg, i =>
    ((first.spans hg i).seq (second.spans _)).cast (by simp +arith [Term.yield])
  | .fraction first second more third fourth, hg, i =>
    ((first.spans hg i).seq ((second.spans _).seq (((third.spans more _).seq
      (fourth.spans _)).cons inert_slash))).cast (by simp +arith [Term.yield])

theorem ReadsBody.spans {room inBar s terms left} :
    ReadsBody room inBar true s terms left → (i : Nat) →
      Spans inBar i s (Term.limitPlacesOfList terms i) (Term.yieldOfList terms).length left
  | .nil _, _ => .refl _ _ _
  | .cons goes first rest, i =>
    ((first.spans (atOperandEnd_of_goes goes) i).seq (rest.spans _)).cast
      (by simp +arith [Term.yieldOfList])

end

end Formula

end FormulaMarkup
