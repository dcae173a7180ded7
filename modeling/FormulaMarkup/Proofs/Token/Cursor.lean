import FormulaMarkup.Proofs.Token.Lookahead

/-!
# Looking ahead is a cursor in the list of all tokens

Whatever is asked of tokens that are read on demand, in whatever order, the answers are those of a
cursor in the list of all tokens of the input. Only taking a token moves it.
-/

namespace FormulaMarkup

/-! ## Operations -/

namespace Lookahead

/-- What can be asked. -/
inductive Operation where
  | peekNth (n : Nat)
  | peek
  | peekSecond
  | next
  | hasClosingBar
  deriving DecidableEq

inductive Answer where
  | item (item : TokenItem)
  | closingBar (follows : Bool)
  deriving DecidableEq

def perform : Operation → Lookahead → Answer × Lookahead
  | .peekNth n, ahead => (.item (ahead.peekNth n).1, (ahead.peekNth n).2)
  | .peek, ahead => (.item ahead.peek.1, ahead.peek.2)
  | .peekSecond, ahead => (.item ahead.peekSecond.1, ahead.peekSecond.2)
  | .next, ahead => (.item ahead.next.1, ahead.next.2)
  | .hasClosingBar, ahead => (.closingBar ahead.hasClosingBar.1, ahead.hasClosingBar.2)

/-- The answers to operations one after another, and the state after them. -/
def run {σ : Type} (perform : Operation → σ → Answer × σ) : List Operation → σ → List Answer × σ
  | [], state => ([], state)
  | operation :: operations, state =>
    let (answer, state) := perform operation state
    let (answers, state) := run perform operations state
    (answer :: answers, state)

/-- If related states give the same answers and stay related, they do so in the long run. -/
theorem run_simulates {σ τ : Type} {perform : Operation → σ → Answer × σ}
    {perform' : Operation → τ → Answer × τ} {R : σ → τ → Prop}
    (hstep : ∀ operation state state', R state state' →
      (perform operation state).1 = (perform' operation state').1 ∧
        R (perform operation state).2 (perform' operation state').2)
    (operations : List Operation) {state : σ} {state' : τ} (h : R state state') :
    (run perform operations state).1 = (run perform' operations state').1 ∧
      R (run perform operations state).2 (run perform' operations state').2 := by
  induction operations generalizing state state' with
  | nil => exact ⟨rfl, h⟩
  | cons operation operations ih =>
    obtain ⟨hanswer, hafter⟩ := hstep operation state state' h
    obtain ⟨hanswers, hend⟩ := ih hafter
    exact ⟨List.cons_eq_cons.2 ⟨hanswer, hanswers⟩, hend⟩

end Lookahead

open Lookahead

/-! ## The cursor -/

/-- A place in the list of all tokens, and where the input ends. -/
structure Cursor where
  tokens : List Token
  stop : Nat
  index : Nat

namespace Cursor

def ofInput (input : String) : Cursor := ⟨tokenize input, Text.width input.toList, 0⟩

/-- What stands `n` tokens after the cursor. -/
def itemAt (cursor : Cursor) (n : Nat) : TokenItem :=
  match cursor.tokens[cursor.index + n]? with
  | some token => .token token
  | none => .endOfInput cursor.stop

/-- The cursor one token further, unless it is at the end. -/
def advance (cursor : Cursor) : Cursor :=
  if cursor.index < cursor.tokens.length then
    { cursor with index := cursor.index + 1 }
  else
    cursor

/-- Whether a bar follows that belongs to a bar before the cursor. -/
def hasClosingBar (cursor : Cursor) : Bool :=
  Formula.hasClosingBar 0 ((cursor.tokens.drop cursor.index).map (·.lexeme))

/-- Only taking a token moves the cursor. -/
def perform : Operation → Cursor → Answer × Cursor
  | .peekNth n, cursor => (.item (cursor.itemAt n), cursor)
  | .peek, cursor => (.item (cursor.itemAt 0), cursor)
  | .peekSecond, cursor => (.item (cursor.itemAt 1), cursor)
  | .next, cursor => (.item (cursor.itemAt 0), cursor.advance)
  | .hasClosingBar, cursor => (.closingBar cursor.hasClosingBar, cursor)

end Cursor

namespace Lookahead

variable {ahead : Lookahead} {cursor : Cursor}

/-- The tokens that have not been taken are those from the cursor on. -/
structure StandsAt (ahead : Lookahead) (cursor : Cursor) : Prop where
  remaining : ahead.remaining = cursor.tokens.drop cursor.index
  length : ahead.length = cursor.stop

theorem standsAt_ofInput (input : String) : (ofInput input).StandsAt (.ofInput input) where
  remaining := remaining_ofInput input
  length := rfl

/-! ## One operation -/

theorem length_load (ahead : Lookahead) : ahead.load.length = ahead.length := by
  unfold load
  split
  · rfl
  · split <;> rfl

theorem length_loadMany (n : Nat) (ahead : Lookahead) :
    (ahead.loadMany n).length = ahead.length := by
  induction n generalizing ahead with
  | zero => rfl
  | succ n ih => rw [loadMany, ih, length_load]

theorem StandsAt.ensure (h : ahead.StandsAt cursor) (n : Nat) :
    (ahead.ensure n).StandsAt cursor where
  remaining := (remaining_ensure n ahead).trans h.remaining
  length := (length_loadMany _ ahead).trans h.length

theorem StandsAt.getElem?_remaining (h : ahead.StandsAt cursor) (n : Nat) :
    ahead.remaining[n]? = cursor.tokens[cursor.index + n]? := by
  rw [h.remaining, List.getElem?_drop]

theorem StandsAt.peekNth (h : ahead.StandsAt cursor) (n : Nat) :
    (ahead.peekNth n).1 = cursor.itemAt n := by
  have hremaining := h.getElem?_remaining n
  rw [Cursor.itemAt, ← hremaining]
  cases hn : ahead.remaining[n]? with
  | none => rw [peekNth_of_none hn, (h.ensure n).length]
  | some token => rw [peekNth_of_some hn]

theorem StandsAt.peekNth_after (h : ahead.StandsAt cursor) (n : Nat) :
    (ahead.peekNth n).2.StandsAt cursor := by
  rw [peekNth_snd]
  exact h.ensure n

/-- At the end nothing is taken. -/
theorem next_of_nil (h : ahead.remaining = []) :
    ahead.next = (.endOfInput (ahead.ensure 0).length, ahead.ensure 0) := by
  have hbuffer : (ahead.ensure 0).buffer = [] := by
    rw [← remaining_ensure 0, remaining] at h
    exact (List.append_eq_nil_iff.1 h).1
  simp only [next, hbuffer]

theorem length_next (ahead : Lookahead) : ahead.next.2.length = ahead.length := by
  rw [next]
  split <;> exact length_loadMany _ ahead

theorem StandsAt.next (h : ahead.StandsAt cursor) :
    ahead.next.1 = cursor.itemAt 0 ∧ ahead.next.2.StandsAt cursor.advance := by
  by_cases hindex : cursor.index < cursor.tokens.length
  · have hremaining := h.remaining
    rw [List.drop_eq_getElem_cons hindex] at hremaining
    obtain ⟨after, hnext, hafter⟩ := exists_next hremaining
    have hlength := (length_next ahead).trans h.length
    rw [hnext] at hlength ⊢
    rw [Cursor.itemAt, Nat.add_zero, List.getElem?_eq_getElem hindex, Cursor.advance,
      if_pos hindex]
    exact ⟨rfl, hafter, hlength⟩
  · have hend := Nat.le_of_not_lt hindex
    have hremaining : ahead.remaining = [] := by rw [h.remaining, List.drop_eq_nil_of_le hend]
    rw [next_of_nil hremaining, Cursor.itemAt, Nat.add_zero, List.getElem?_eq_none hend,
      Cursor.advance, if_neg hindex, (h.ensure 0).length]
    exact ⟨rfl, h.ensure 0⟩

theorem StandsAt.hasClosingBar (h : ahead.StandsAt cursor) :
    ahead.hasClosingBar.1 = cursor.hasClosingBar ∧ ahead.hasClosingBar.2.StandsAt cursor := by
  constructor
  · rw [hasClosingBar_eq, h.remaining, Cursor.hasClosingBar]
  · exact scanClosingBar_keeps (P := (StandsAt · cursor)) (fun n _ h => h.ensure n) _ 0 0 h

/-- Every operation is answered as by the cursor, and the cursor stands right after it. -/
theorem StandsAt.perform (h : ahead.StandsAt cursor) (operation : Operation) :
    (ahead.perform operation).1 = (cursor.perform operation).1 ∧
      (ahead.perform operation).2.StandsAt (cursor.perform operation).2 := by
  cases operation with
  | peekNth n => exact ⟨congrArg Answer.item (h.peekNth n), h.peekNth_after n⟩
  | peek => exact ⟨congrArg Answer.item (h.peekNth 0), h.peekNth_after 0⟩
  | peekSecond => exact ⟨congrArg Answer.item (h.peekNth 1), h.peekNth_after 1⟩
  | next => exact ⟨congrArg Answer.item h.next.1, h.next.2⟩
  | hasClosingBar => exact ⟨congrArg Answer.closingBar h.hasClosingBar.1, h.hasClosingBar.2⟩

end Lookahead

/-! ## All operations -/

namespace Cursor

theorem tokens_advance (cursor : Cursor) : cursor.advance.tokens = cursor.tokens := by
  rw [advance]
  split <;> rfl

theorem index_advance {cursor : Cursor} (h : cursor.index ≤ cursor.tokens.length) :
    cursor.advance.index = min (cursor.index + 1) cursor.tokens.length := by
  rw [advance]
  split
  · next hindex => exact (Nat.min_eq_left hindex).symm
  · next hindex => omega

/-- The cursor counts the tokens that have been taken. What else has been asked does not matter. -/
theorem index_run (operations : List Operation) {cursor : Cursor}
    (h : cursor.index ≤ cursor.tokens.length) :
    (run perform operations cursor).2.index =
      min (cursor.index + operations.count .next) cursor.tokens.length := by
  induction operations generalizing cursor with
  | nil => exact (Nat.min_eq_left h).symm
  | cons operation operations ih =>
    cases operation with
    | next =>
      have hle : cursor.advance.index ≤ cursor.advance.tokens.length := by
        rw [index_advance h, tokens_advance]
        exact Nat.min_le_right _ _
      have hafter := ih hle
      rw [index_advance h, tokens_advance] at hafter
      rw [List.count_cons_self]
      refine hafter.trans ?_
      omega
    | _ => exact ih h

end Cursor

/-- Any sequence of operations is answered as by a cursor in the list of all tokens. It stands
before them at first, and then after as many as have been taken, whatever has been looked at. -/
theorem run_ofInput (input : String) (operations : List Operation) :
    (run Lookahead.perform operations (.ofInput input)).1 =
        (run Cursor.perform operations (.ofInput input)).1 ∧
      (run Cursor.perform operations (.ofInput input)).2.index =
        min (operations.count .next) (tokenize input).length := by
  refine ⟨(run_simulates (fun operation _ _ h => h.perform operation) operations
    (standsAt_ofInput input)).1, ?_⟩
  rw [Cursor.index_run operations (Nat.zero_le _), Cursor.ofInput, Nat.zero_add]

/-- Beyond the last token the end of the input is told again and again. -/
example :
    let answers := (run Lookahead.perform [.peekSecond, .next, .next, .peek] (.ofInput "x ")).1
    answers = [.item (.endOfInput 2), .item (.token ⟨.character 'x', 0, 1⟩), .item (.endOfInput 2),
      .item (.endOfInput 2)] := by
  decide +kernel

end FormulaMarkup
