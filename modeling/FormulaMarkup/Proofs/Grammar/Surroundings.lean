import FormulaMarkup.Proofs.Grammar.Locality

/-!
# Reading in other surroundings

What follows a part may be replaced by anything that begins alike and gives the same answer to the
search for a bar, and a bracket that closes what is around by nothing at all. And a part that keeps
within the limits is read in the same way where more levels may open.
-/

namespace FormulaMarkup

/-- A notice of a level that is too deep. -/
def Notice.isLimit : Notice → Bool
  | scriptLimit | nestingLimit _ => true
  | _ => false

def WithinLimits (ns : List Notice) : Prop := ∀ notice ∈ ns, notice.isLimit = false

instance (ns : List Notice) : Decidable (WithinLimits ns) :=
  inferInstanceAs (Decidable (∀ notice ∈ ns, notice.isLimit = false))

theorem WithinLimits.append {ns ms : List Notice} :
    WithinLimits (ns ++ ms) ↔ WithinLimits ns ∧ WithinLimits ms :=
  List.forall_mem_append

namespace Formula

/-! ## What follows -/

/-- The next lexeme does not tell `s` from `s'`: no other one is next in `s'`, and an operand ends
before both or before neither. -/
structure SameNext (s s' : List Lexeme) : Prop where
  mem_head? : ∀ x ∈ s'.head?, x ∈ s.head?
  atOperandEnd (inBar : Bool) : Formula.atOperandEnd inBar s = Formula.atOperandEnd inBar s'

theorem sameNext_of_head? {s s' : List Lexeme} (h : s.head? = s'.head?) : SameNext s s' where
  mem_head? x hx := by rwa [h]
  atOperandEnd inBar := by cases s <;> cases s' <;> simp_all

theorem bodyEnds_true (inBar : Bool) (s : List Lexeme) :
    bodyEnds inBar true s = atOperandEnd inBar s := by
  cases s <;> rfl

/-- After `w`, neither the next lexeme, nor the one after a mark, nor the search for a bar from some
place in `w` tells `s` from `s'`. -/
structure Alike (w s s' : List Lexeme) : Prop where
  next : SameNext s s'
  second : Separate s ∨ SameNext s.tail s'.tail
  hasClosingBar : ∀ u, u <:+ w → Formula.hasClosingBar 0 (u ++ s) = Formula.hasClosingBar 0 (u ++ s')

theorem SameNext.head?_ne {s s' : List Lexeme} (h : SameNext s s') {x : Lexeme}
    (hx : s.head? ≠ some x) : s'.head? ≠ some x :=
  fun hx' => hx (h.mem_head? x hx')

theorem hasClosingBar_append {s s' : List Lexeme}
    (h : ∀ depth, hasClosingBar depth s = hasClosingBar depth s') (u : List Lexeme) (depth : Nat) :
    hasClosingBar depth (u ++ s) = hasClosingBar depth (u ++ s') := by
  induction u generalizing depth with
  | nil => exact h depth
  | cons x u ih => simp only [List.cons_append, hasClosingBar, ih]

namespace Alike

variable {w u s s' : List Lexeme} {inBar ends : Bool}

theorem of_append (h : Alike (u ++ w) s s') : Alike w s s' where
  next := h.next
  second := h.second
  hasClosingBar v hv := h.hasClosingBar v (hv.trans (List.suffix_append u w))

theorem of_cons {x : Lexeme} (h : Alike (x :: w) s s') : Alike w s s' := of_append (u := [x]) h

theorem atOperandEnd (h : Alike w s s') (hs : Formula.atOperandEnd inBar s = ends) :
    Formula.atOperandEnd inBar s' = ends :=
  (h.next.atOperandEnd inBar).symm.trans hs

theorem append (h : Alike (w ++ u) s s') : Alike w (u ++ s) (u ++ s') := by
  have hbars : ∀ v, v <:+ w → Formula.hasClosingBar 0 (v ++ (u ++ s)) =
      Formula.hasClosingBar 0 (v ++ (u ++ s')) := by
    rintro v ⟨before, rfl⟩
    rw [← List.append_assoc, ← List.append_assoc]
    exact h.hasClosingBar (v ++ u) ⟨before, by rw [List.append_assoc]⟩
  match u with
  | [] => exact ⟨h.next, h.second, hbars⟩
  | [x] => exact ⟨sameNext_of_head? rfl, .inr h.next, hbars⟩
  | x :: y :: u => exact ⟨sameNext_of_head? rfl, .inr (sameNext_of_head? rfl), hbars⟩

/-- A mark stays, and what is next after it. -/
theorem after_mark {x : Lexeme} (h : Alike w (x :: s) s') (hx : ¬ Separate (x :: s))
    (hcloses : closes false x = false) : ∃ t, s' = x :: t ∧ SameNext s t := by
  have hsecond := h.second.resolve_left hx
  have hmore : Formula.atOperandEnd false s' = false := h.atOperandEnd hcloses
  cases s' with
  | nil => cases hmore
  | cons y t =>
    obtain rfl : x = y := Option.some.inj (h.next.mem_head? y rfl)
    exact ⟨t, rfl, hsecond⟩

end Alike

theorem not_separate_marker (marker : Marker) (s : List Lexeme) :
    ¬ Separate (.symbol marker.word :: s) := by
  intro h
  have hmarker := (h _ rfl).1
  rw [Marker.marker?_word] at hmarker
  cases hmarker

theorem not_separate_slash (s : List Lexeme) : ¬ Separate (.symbol .slash :: s) :=
  fun h => (h _ rfl).2 rfl

theorem closes_marker (marker : Marker) : closes false (.symbol marker.word) = false := by
  cases marker <;> rfl

variable {w left left' : List Lexeme}

theorem ReadsClosing.replace {role : Role} {s : List Lexeme} {closing : Option (WordOf role)}
    (hl : Alike w left left') (h : ReadsClosing role s closing left) :
    ReadsClosing role (Word.closingYield closing ++ left') closing left' := by
  cases h with
  | closed word => exact .closed word left'
  | unclosed next => exact .unclosed fun y hy => next y (hl.next.mem_head? y hy)

theorem ReadsClosing.alike {role : Role} {s : List Lexeme} {closing : Option (WordOf role)}
    (hl : Alike (w ++ Word.closingYield closing) left left')
    (h : ReadsClosing role s closing left) : Alike w s (Word.closingYield closing ++ left') := by
  rw [← h.yield_append]
  exact hl.append

theorem ReadsOperand.alike {room inBar s operand} (hl : Alike (w ++ operand.yield) left left')
    (h : ReadsOperand room inBar s operand left) : Alike w s (operand.yield ++ left') := by
  rw [← h.yield_append]
  exact hl.append

theorem ReadsScripts.alike {room inBar slots s scripts}
    (hl : Alike (w ++ scripts.yield) left left')
    (h : ReadsScripts room inBar slots s scripts left) : Alike w s (scripts.yield ++ left') := by
  rw [← h.yield_append]
  exact hl.append

theorem ReadsTerm.alike {room inBar s term} (hl : Alike (w ++ term.yield) left left')
    (h : ReadsTerm room inBar s term left) : Alike w s (term.yield ++ left') := by
  rw [← h.yield_append]
  exact hl.append

theorem ReadsBody.alike {room inBar inGroup s terms}
    (hl : Alike (w ++ Term.yieldOfList terms) left left')
    (h : ReadsBody room inBar inGroup s terms left) :
    Alike w s (Term.yieldOfList terms ++ left') := by
  rw [← h.yield_append]
  exact hl.append

mutual

theorem ReadsOperand.replace {room inBar s operand left left'} :
    ReadsOperand room inBar s operand left → Alike operand.yield left left' →
      ReadsOperand room inBar (operand.yield ++ left') operand left'
  | .number n, _ => .number n
  | .text body, _ => .text body
  | .character c, _ => .character c
  | .leaf word role, _ => .leaf word role
  | .keyword word role, _ => .keyword word role
  | .strayClosing word role, _ => .strayClosing word role
  | .beyondLimit word role, _ => .beyondLimit word role
  | .group word role content close, hl => by
    rw [Operand.yield, List.cons_append, List.append_assoc]
    exact .group word role (content.replace (close.alike hl.of_cons)) (close.replace hl)
  | .loneBar word role alone, hl => by
    have hsame := hl.hasClosingBar [] (List.nil_suffix)
    exact .loneBar word role (hsame.symm.trans alone)
  | .bars word role paired content close, hl => by
    have hl' := close.alike hl.of_cons
    have hsame := hl'.hasClosingBar _ (List.suffix_refl _)
    rw [content.yield_append] at hsame
    rw [Operand.yield, List.cons_append, List.append_assoc]
    exact .bars word role (hsame.symm.trans paired) (content.replace hl') (close.replace hl)
  | .function word role first more second, hl => by
    have hl' := second.alike hl.of_cons
    rw [Operand.yield, List.cons_append, List.append_assoc]
    exact .function word role (first.replace hl') (hl'.atOperandEnd more)
      (second.replace hl.of_cons.of_append)
  | .functionAlone word role first ends, hl => by
    rw [Operand.yield, List.cons_append]
    exact .functionAlone word role (first.replace hl.of_cons) (hl.atOperandEnd ends)
  | .noArgument word role ends, hl => .noArgument word role (hl.atOperandEnd ends)
  | .verbatim word role body, _ => .verbatim word role body
  | .unary word kind role more markup first, hl => by
    have hs := first.alike (w := [.symbol word]) hl
    rw [Operand.yield, List.cons_append]
    exact .unary word kind role (hs.atOperandEnd more)
      (fun hkind body => hs.next.head?_ne (markup hkind body)) (first.replace hl.of_cons)
  | .noSecond word order role more first ends, hl => by
    have hs := first.alike (w := [.symbol word]) hl
    rw [Operand.yield, List.cons_append]
    exact .noSecond word order role (hs.atOperandEnd more) (first.replace hl.of_cons)
      (hl.atOperandEnd ends)
  | .binary word order role more first more' second, hl => by
    have hl' := second.alike hl.of_cons
    have hs := first.alike (w := []) hl'
    rw [Operand.yield, List.cons_append, List.append_assoc]
    exact .binary word order role (hs.atOperandEnd more) (first.replace hl')
      (hl'.atOperandEnd more') (second.replace hl.of_cons.of_append)

theorem ReadsScripts.replace {room inBar slots s scripts left left'} :
    ReadsScripts room inBar slots s scripts left → Alike scripts.yield left left' →
      ReadsScripts room inBar slots (scripts.yield ++ left') scripts left'
  | .complete next, hl => .complete fun x hx => next x (hl.next.mem_head? x hx)
  | .noOperand marker ends, hl => by
    obtain ⟨t, rfl, ht⟩ := hl.after_mark (not_separate_marker marker _) (closes_marker marker)
    exact .noOperand marker ((ht.atOperandEnd _).symm.trans ends)
  | .limit marker more full, hl => by
    obtain ⟨t, rfl, ht⟩ := hl.after_mark (not_separate_marker marker _) (closes_marker marker)
    exact .limit marker ((ht.atOperandEnd _).symm.trans more) full
  | .cons marker more free first rest, hl => by
    have hl' := rest.alike hl.of_cons
    have hs := first.alike (w := []) hl'
    rw [Scripts.yield, List.cons_append, List.append_assoc]
    exact .cons marker (hs.atOperandEnd more) free (first.replace hl')
      (rest.replace hl.of_cons.of_append)

theorem ReadsTerm.replace {room inBar s term left left'} :
    ReadsTerm room inBar s term left → Alike term.yield left left' →
      ReadsTerm room inBar (term.yield ++ left') term left'
  | .scripted first second next, hl => by
    rw [Term.yield, List.append_assoc]
    exact .scripted (first.replace (second.alike hl)) (second.replace hl.of_append)
      (hl.next.head?_ne next)
  | .noDenominator first second ends, hl => by
    obtain ⟨t, rfl, ht⟩ := hl.after_mark (not_separate_slash _) rfl
    rw [Term.yield, List.append_assoc]
    exact .noDenominator (first.replace (second.alike hl)) (second.replace hl.of_append)
      ((ht.atOperandEnd _).symm.trans ends)
  | .fraction first second more third fourth, hl => by
    have hdenominator := hl.of_append.of_append.of_cons
    rw [Term.yield, ← List.append_assoc, ← List.singleton_append, ← List.append_assoc,
      ← List.append_assoc] at hl
    have hthird := third.alike (fourth.alike hl)
    have hslash := hthird.append
    simp only [Term.yield, List.append_assoc, List.cons_append]
    exact .fraction (first.replace (second.alike hslash)) (second.replace hslash.of_append)
      (hthird.atOperandEnd more) (third.replace (fourth.alike hdenominator))
      (fourth.replace hdenominator.of_append)

theorem ReadsBody.replace {room inBar s terms left left'} :
    ReadsBody room inBar true s terms left → Alike (Term.yieldOfList terms) left left' →
      ReadsBody room inBar true (Term.yieldOfList terms ++ left') terms left'
  | .nil ends, hl => .nil (by rw [bodyEnds_true] at ends ⊢; exact hl.atOperandEnd ends)
  | .cons goes first rest, hl => by
    have hl' := rest.alike hl
    have hs := first.alike (w := []) hl'
    rw [bodyEnds_true] at goes
    rw [Term.yieldOfList, List.append_assoc]
    exact .cons (by rw [bodyEnds_true]; exact hs.atOperandEnd goes) (first.replace hl')
      (rest.replace hl.of_append)

end

/-! ## How many levels may open -/

theorem free_of_deeper {taken : Bool} {room levels : Nat} (h : (taken && room ≤ levels) = false) :
    (taken && room + 1 ≤ levels) = false := by
  rw [Bool.and_eq_false_iff, decide_eq_false_iff_not] at h ⊢
  exact h.imp_right fun hroom => by omega

mutual

theorem ReadsOperand.deepen {room inBar s operand left} :
    ReadsOperand room inBar s operand left → WithinLimits operand.notices →
      ReadsOperand (room + 1) inBar s operand left
  | .number n, _ => .number n
  | .text body, _ => .text body
  | .character c, _ => .character c
  | .leaf word role, _ => .leaf word role
  | .keyword word role, _ => .keyword word role
  | .strayClosing word role, _ => .strayClosing word role
  | .beyondLimit word _, hn => by cases hn (.nestingLimit word.spelling) (List.mem_singleton_self _)
  | .group word role content close, hn =>
    .group word role (content.deepen (WithinLimits.append.1 hn).1) close
  | .loneBar word role alone, _ => .loneBar word role alone
  | .bars word role paired content close, hn =>
    .bars word role paired (content.deepen (WithinLimits.append.1 hn).1) close
  | .function word role first more second, hn => by
    obtain ⟨hscripts, hargument⟩ := WithinLimits.append.1 hn
    exact .function word role (first.deepen hscripts) more (second.deepen hargument)
  | .functionAlone word role first ends, hn =>
    .functionAlone word role (first.deepen (WithinLimits.append.1 hn).1) ends
  | .noArgument word role ends, _ => .noArgument word role ends
  | .verbatim word role body, _ => .verbatim word role body
  | .unary word kind role more markup first, hn =>
    .unary word kind role more markup (first.deepen hn)
  | .noSecond word order role more first ends, hn =>
    .noSecond word order role more (first.deepen (WithinLimits.append.1 hn).1) ends
  | .binary word order role more first more' second, hn => by
    obtain ⟨hfirst, hsecond⟩ := WithinLimits.append.1 hn
    exact .binary word order role more (first.deepen hfirst) more' (second.deepen hsecond)

theorem ReadsScripts.deepen {room inBar slots s scripts left} :
    ReadsScripts room inBar slots s scripts left → WithinLimits scripts.notices →
      ReadsScripts (room + 1) inBar slots s scripts left
  | .complete next, _ => .complete next
  | .noOperand marker ends, _ => .noOperand marker ends
  | .limit _ _ _, hn => by cases hn .scriptLimit (List.mem_singleton_self _)
  | .cons marker more free first rest, hn => by
    obtain ⟨hfirst, hrest⟩ := WithinLimits.append.1 hn
    have hfree := free_of_deeper free
    exact .cons marker more hfree (first.deepen hfirst) (rest.deepen hrest)

theorem ReadsTerm.deepen {room inBar s term left} :
    ReadsTerm room inBar s term left → WithinLimits term.notices →
      ReadsTerm (room + 1) inBar s term left
  | .scripted first second next, hn => by
    obtain ⟨hfirst, hsecond⟩ := WithinLimits.append.1 hn
    exact .scripted (first.deepen hfirst) (second.deepen hsecond) next
  | .noDenominator first second ends, hn => by
    obtain ⟨hfirst, hn⟩ := WithinLimits.append.1 hn
    exact .noDenominator (first.deepen hfirst) (second.deepen (WithinLimits.append.1 hn).1) ends
  | .fraction first second more third fourth, hn => by
    obtain ⟨hfirst, hn⟩ := WithinLimits.append.1 hn
    obtain ⟨hsecond, hn⟩ := WithinLimits.append.1 hn
    obtain ⟨hthird, hfourth⟩ := WithinLimits.append.1 hn
    exact .fraction (first.deepen hfirst) (second.deepen hsecond) more (third.deepen hthird)
      (fourth.deepen hfourth)

theorem ReadsBody.deepen {room inBar inGroup s terms left} :
    ReadsBody room inBar inGroup s terms left → WithinLimits (Term.noticesOfList terms) →
      ReadsBody (room + 1) inBar inGroup s terms left
  | .nil ends, _ => .nil ends
  | .cons goes first rest, hn => by
    obtain ⟨hfirst, hrest⟩ := WithinLimits.append.1 hn
    exact .cons goes (first.deepen hfirst) (rest.deepen hrest)

end

/-! ## Groups -/

theorem hasClosingBar_of_noBars {s : List Lexeme} (h : NoBars s) (depth : Nat) :
    hasClosingBar depth s = false := by
  induction s generalizing depth with
  | nil => rfl
  | cons x s ih =>
    obtain ⟨hx, hs⟩ := NoBars.cons.1 h
    rw [hasClosingBar.eq_def]
    dsimp only
    split
    · exact ih hs _
    · split
      · rfl
      · exact ih hs _
    · next role => exact absurd role hx
    · exact ih hs _

theorem marker?_of_role {word : Word} (h : word.role ≠ .operator) :
    (Lexeme.symbol word).marker? = none := by
  cases hmarker : (Lexeme.symbol word).marker? with
  | none => rfl
  | some marker =>
    obtain rfl : word = marker.word := Lexeme.symbol.inj (Lexeme.eq_of_marker? hmarker)
    cases marker <;> exact absurd rfl h

theorem separate_of_role {word : Word} (h : word.role ≠ .operator) (s : List Lexeme) :
    Separate (.symbol word :: s) := by
  rintro x ⟨⟩
  refine ⟨marker?_of_role h, ?_⟩
  rintro ⟨⟩
  exact h rfl

theorem sameNext_closing (closing : WordOf .closeBracket) (t t' : List Lexeme) :
    SameNext (.symbol closing.1 :: t) (.symbol closing.1 :: t') ∧
      Separate (.symbol closing.1 :: t) :=
  ⟨sameNext_of_head? rfl, separate_of_role (by simp [closing.2]) t⟩

/-- A closing bracket hides what follows it if no bar does. -/
theorem alike_closing (w : List Lexeme) (closing : WordOf .closeBracket) {t t' : List Lexeme}
    (ht : NoBars t) (ht' : NoBars t') :
    Alike w (.symbol closing.1 :: t) (.symbol closing.1 :: t') := by
  have hclosing : (Lexeme.symbol closing.1).role? ≠ some .leftRight := by
    simp [Lexeme.role?_symbol, closing.2]
  obtain ⟨hnext, hsecond⟩ := sameNext_closing closing t t'
  refine ⟨hnext, .inl hsecond, fun u _ => hasClosingBar_append (fun depth => ?_) u 0⟩
  rw [hasClosingBar_of_noBars (NoBars.cons.2 ⟨hclosing, ht⟩),
    hasClosingBar_of_noBars (NoBars.cons.2 ⟨hclosing, ht'⟩)]

/-- A group that is closed is read in the same way whatever follows, if no bar in it tells what
follows from nothing. -/
theorem ReadsOperand.group_replace {room : Nat} {inBar : Bool} {s t : List Lexeme} {opening : Word}
    {role : opening.role = .openBracket} {body : List Term} {closing : WordOf .closeBracket}
    (h : ReadsOperand (room + 1) inBar s (.group opening role body (some closing)) [])
    (ht : Alike (Term.yieldOfList body) [.symbol closing.1] (.symbol closing.1 :: t)) :
    ReadsOperand (room + 1) inBar (s ++ t) (.group opening role body (some closing)) t := by
  cases h with
  | group _ _ content close =>
    cases close with
    | closed =>
      have hcontent := content.replace ht
      rw [← content.yield_append, List.cons_append, List.append_assoc]
      exact .group opening role hcontent (.closed closing t)

theorem ReadsOperand.group_append {room : Nat} {inBar : Bool} {s t : List Lexeme} {opening : Word}
    {role : opening.role = .openBracket} {body : List Term} {closing : WordOf .closeBracket}
    (h : ReadsOperand (room + 1) inBar s (.group opening role body (some closing)) [])
    (ht : NoBars t) :
    ReadsOperand (room + 1) inBar (s ++ t) (.group opening role body (some closing)) t :=
  h.group_replace (alike_closing _ closing (List.forall_mem_nil _) ht)

/-- Alone, a closing bracket ends what the end of the input would end. -/
theorem alike_nil (w : List Lexeme) (closing : WordOf .closeBracket) :
    Alike w [.symbol closing.1] [] where
  next.mem_head? := nofun
  next.atOperandEnd inBar := by simp [atOperandEnd, closes, Lexeme.role?_symbol, closing.2]
  second := .inl (separate_of_role (by simp [closing.2]) [])
  hasClosingBar u _ := by
    refine hasClosingBar_append (fun depth => ?_) u 0
    cases depth with
    | zero => simp [Formula.hasClosingBar, Lexeme.role?_symbol, closing.2]
    | succ depth => simp [Formula.hasClosingBar, Lexeme.role?_symbol, closing.2]

/-- What goes on to the end of the input is the same in a group and outside. -/
theorem ReadsBody.outside {room inBar s terms left} :
    ReadsBody room inBar true s terms left → left = [] → ReadsBody room inBar false s terms []
  | .nil _, hleft => by
    subst hleft
    exact .nil rfl
  | .cons (s := s) goes first rest, hleft => by
    have goes' : bodyEnds inBar false s = false := by
      cases s with
      | nil => cases goes
      | cons x s => rfl
    exact .cons goes' first (rest.outside hleft)

/-- The content of a group is a formula of its own if it keeps within the limits. -/
theorem ReadsBody.parse_content {closing : WordOf .closeBracket} {s : List Lexeme}
    {terms : List Term}
    (h : ReadsBody (maxDepth - 1) false true s terms [.symbol closing.1])
    (hn : WithinLimits (Term.noticesOfList terms)) : parse (Term.yieldOfList terms) = terms := by
  have hcontent := h.replace (alike_nil _ closing)
  rw [List.append_nil] at hcontent
  exact parse_eq_iff.2 ((hcontent.outside rfl).deepen hn)

end Formula

end FormulaMarkup
