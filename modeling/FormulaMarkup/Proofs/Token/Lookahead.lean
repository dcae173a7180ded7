import FormulaMarkup.Formula.Parse
import FormulaMarkup.Proofs.Token.Run
import FormulaMarkup.Token.Lookahead

/-!
# Looking ahead does not change what is left

Tokens that have been looked at and tokens that have not been read yet make up one list. Whatever is
looked at, the list stays as it is.
-/

namespace FormulaMarkup

namespace Lexer

variable {lexer lexer' : Lexer} {token : Token}

theorem tokens_of_next_none (h : lexer.next = (none, lexer')) : lexer.tokens = [] := by
  rw [tokens]
  split
  · rfl
  · next heq =>
    rw [h] at heq
    cases heq

theorem tokens_of_next_some (h : lexer.next = (some token, lexer')) :
    lexer.tokens = token :: lexer'.tokens := by
  rw [tokens]
  split
  · next heq =>
    rw [h] at heq
    cases heq
  · next heq =>
    rw [h] at heq
    cases heq
    rfl

theorem length_tokens_le (lexer : Lexer) : lexer.tokens.length ≤ lexer.rest.length := by
  match h : lexer.next with
  | (none, after) =>
    rw [tokens_of_next_none h]
    exact Nat.zero_le _
  | (some token, after) =>
    have hlt := length_next_lt h
    have hmore := length_tokens_le after
    rw [tokens_of_next_some h, List.length_cons]
    omega
termination_by lexer.rest.length
decreasing_by exact length_next_lt h

end Lexer

namespace Lookahead

/-- The tokens that have not been taken. -/
def remaining (ahead : Lookahead) : List Token :=
  ahead.buffer ++ if ahead.exhausted then [] else ahead.lexer.tokens

theorem remaining_ofInput (input : String) : (ofInput input).remaining = tokenize input := by
  simp [remaining, ofInput, tokenize]

theorem remaining_load (ahead : Lookahead) : ahead.load.remaining = ahead.remaining := by
  unfold load
  split
  · rfl
  · next hexhausted =>
    split
    · next token lexer hnext =>
      simp [remaining, hexhausted, Lexer.tokens_of_next_some hnext]
    · next lexer hnext =>
      simp [remaining, hexhausted, Lexer.tokens_of_next_none hnext]

theorem remaining_loadMany (n : Nat) (ahead : Lookahead) :
    (ahead.loadMany n).remaining = ahead.remaining := by
  induction n generalizing ahead with
  | zero => rfl
  | succ n ih => rw [loadMany, ih, remaining_load]

/-- There is one more token in the buffer, unless all have been read. -/
theorem load_loads (ahead : Lookahead) :
    ahead.load.exhausted = true ∨ ahead.load.buffer.length = ahead.buffer.length + 1 := by
  unfold load
  split
  · next hexhausted => exact .inl hexhausted
  · split
    · exact .inr (by simp)
    · exact .inl rfl

theorem loadMany_of_exhausted {ahead : Lookahead} (h : ahead.exhausted = true) (n : Nat) :
    ahead.loadMany n = ahead := by
  induction n with
  | zero => rfl
  | succ n ih =>
    have hload : ahead.load = ahead := by simp [load, h]
    rw [loadMany, hload, ih]

theorem loadMany_loads (n : Nat) (ahead : Lookahead) :
    (ahead.loadMany n).exhausted = true ∨
      ahead.buffer.length + n ≤ (ahead.loadMany n).buffer.length := by
  induction n generalizing ahead with
  | zero => exact .inr (Nat.le_refl _)
  | succ n ih =>
    rw [loadMany]
    rcases load_loads ahead with hexhausted | hlength
    · rw [loadMany_of_exhausted hexhausted]
      exact .inl hexhausted
    · rcases ih ahead.load with h | h
      · exact .inl h
      · exact .inr (by omega)

theorem remaining_ensure (n : Nat) (ahead : Lookahead) :
    (ahead.ensure n).remaining = ahead.remaining :=
  remaining_loadMany _ _

/-- Where the buffer does not reach, there is no token. -/
theorem getElem?_buffer_ensure (n : Nat) (ahead : Lookahead) :
    (ahead.ensure n).buffer[n]? = ahead.remaining[n]? := by
  rw [← remaining_ensure n ahead]
  rcases loadMany_loads (n + 1 - ahead.buffer.length) ahead with hexhausted | hlength
  · have hend : (ahead.ensure n).exhausted = true := hexhausted
    simp [remaining, hend]
  · have hreach : n < (ahead.ensure n).buffer.length := by
      rw [ensure]
      omega
    rw [remaining, List.getElem?_append_left hreach]

theorem peekNth_of_some {n : Nat} {ahead : Lookahead} {token : Token}
    (h : ahead.remaining[n]? = some token) :
    ahead.peekNth n = (.token token, ahead.ensure n) := by
  simp [peekNth, getElem?_buffer_ensure, h]

theorem peekNth_of_none {n : Nat} {ahead : Lookahead} (h : ahead.remaining[n]? = none) :
    ahead.peekNth n = (.endOfInput (ahead.ensure n).length, ahead.ensure n) := by
  simp [peekNth, getElem?_buffer_ensure, h]

theorem peekNth_snd (n : Nat) (ahead : Lookahead) : (ahead.peekNth n).2 = ahead.ensure n := by
  unfold peekNth
  dsimp only
  split <;> rfl

/-- The first of the tokens that are left is taken. -/
theorem exists_next {ahead : Lookahead} {token : Token} {rest : List Token}
    (h : ahead.remaining = token :: rest) :
    ∃ ahead' : Lookahead, ahead.next = (.token token, ahead') ∧ ahead'.remaining = rest := by
  have hremaining : (ahead.ensure 0).remaining = token :: rest := by rw [remaining_ensure, h]
  have hbuffer : (ahead.ensure 0).buffer[0]? = some token := by
    rw [getElem?_buffer_ensure, h]
    rfl
  rw [← List.head?_eq_getElem?] at hbuffer
  obtain ⟨buffer, hbuffer⟩ := List.head?_eq_some_iff.1 hbuffer
  refine ⟨{ ahead.ensure 0 with buffer }, by simp only [next, hbuffer], ?_⟩
  rw [remaining, hbuffer, List.cons_append] at hremaining
  exact (List.cons.inj hremaining).2

/-- The search for a bar sees the lexemes that are left. -/
theorem scanClosingBar_eq (fuel depth n : Nat) (ahead : Lookahead)
    (hfuel : ahead.remaining.length < fuel + n) :
    (ahead.scanClosingBar fuel depth n).1 =
      Formula.hasClosingBar depth ((ahead.remaining.drop n).map (·.lexeme)) := by
  -- The fuel stays above the number of tokens from `n` on, so it does not run out before they do.
  induction fuel generalizing depth n ahead with
  | zero =>
    rw [List.drop_eq_nil_of_le (by omega)]
    rfl
  | succ fuel ih =>
    cases h : ahead.remaining[n]? with
    | none =>
      rw [scanClosingBar, peekNth_of_none h, List.drop_eq_nil_of_le (List.getElem?_eq_none_iff.1 h)]
      rfl
    | some token =>
      obtain ⟨hn, htoken⟩ := List.getElem?_eq_some_iff.1 h
      have hmore : ∀ depth, ((ahead.ensure n).scanClosingBar fuel depth (n + 1)).1 =
          Formula.hasClosingBar depth ((ahead.remaining.drop (n + 1)).map (·.lexeme)) := by
        intro depth
        rw [ih depth (n + 1) _ (by rw [remaining_ensure]; omega), remaining_ensure]
      rw [List.drop_eq_getElem_cons hn, htoken, List.map_cons, scanClosingBar, peekNth_of_some h,
        Formula.hasClosingBar.eq_def]
      dsimp only
      cases token.lexeme.role? with
      | none => exact hmore depth
      | some role =>
        cases role with
        | openBracket => exact hmore (depth + 1)
        | closeBracket =>
          cases depth with
          | zero => rfl
          | succ depth => exact hmore depth
        | leftRight =>
          cases depth with
          | zero => rfl
          | succ depth => exact hmore (depth + 1)
        | _ => exact hmore depth

/-- What looking ahead keeps, the search for a bar keeps. -/
theorem scanClosingBar_keeps {P : Lookahead → Prop}
    (hensure : ∀ n (ahead : Lookahead), P ahead → P (ahead.ensure n)) (fuel depth n : Nat)
    {ahead : Lookahead} (h : P ahead) : P (ahead.scanClosingBar fuel depth n).2 := by
  induction fuel generalizing depth n ahead with
  | zero => exact h
  | succ fuel ih =>
    have hpeek : P (ahead.peekNth n).2 := by
      rw [peekNth_snd]
      exact hensure n ahead h
    rw [scanClosingBar]
    split
    · next heq => rwa [heq] at hpeek
    · next token after heq =>
      rw [heq] at hpeek
      split <;> first
        | exact ih _ _ hpeek
        | exact hpeek

theorem remaining_hasClosingBar (ahead : Lookahead) :
    ahead.hasClosingBar.2.remaining = ahead.remaining :=
  scanClosingBar_keeps (P := fun after => after.remaining = ahead.remaining)
    (fun n after h => (remaining_ensure n after).trans h) _ 0 0 rfl

/-- Whether a bar follows is decided by the tokens that have not been taken, whether they have been
looked at before or not. -/
theorem hasClosingBar_eq (ahead : Lookahead) :
    ahead.hasClosingBar.1 = Formula.hasClosingBar 0 (ahead.remaining.map (·.lexeme)) := by
  have hlength : ahead.remaining.length ≤ ahead.buffer.length + ahead.lexer.rest.length := by
    rw [remaining, List.length_append]
    refine Nat.add_le_add_left ?_ _
    split
    · exact Nat.zero_le _
    · exact ahead.lexer.length_tokens_le
  exact scanClosingBar_eq _ 0 0 ahead (by omega)

end Lookahead

end FormulaMarkup
