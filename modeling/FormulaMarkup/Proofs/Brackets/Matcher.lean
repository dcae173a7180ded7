import FormulaMarkup.Formula.Parse

/-!
# Brackets matched with a stack

A closing bracket belongs to the innermost opening one that is still open, whatever the two look
like. Nothing else counts.
-/

namespace FormulaMarkup

/-- The brackets of a list of lexemes, by their places in the list. -/
@[ext] structure Brackets where
  /-- brackets that belong together, in the order of the closing ones -/
  pairs : List (Nat × Nat)
  /-- opening brackets without a closing one, the innermost first -/
  unclosed : List (Nat × Word)
  /-- closing brackets without an opening one -/
  stray : List (Nat × Word)

namespace Brackets

def empty : Brackets := ⟨[], [], []⟩

def seq (a b : Brackets) : Brackets :=
  ⟨a.pairs ++ b.pairs, a.unclosed ++ b.unclosed, a.stray ++ b.stray⟩

/-- The brackets of a part, if those that it leaves open are among the ones of the rest. -/
def before (a rest : Brackets) : Brackets :=
  ⟨a.pairs ++ rest.pairs, rest.unclosed, a.stray ++ rest.stray⟩

/-- The brackets of the lexemes from place `i` on, if those of `pending` are open, the innermost
first. -/
def ofLexemes (i : Nat) (pending : List (Nat × Word)) : List Lexeme → Brackets
  | [] => ⟨[], pending, []⟩
  | .symbol word :: s =>
    match word.role, pending with
    | .openBracket, pending => ofLexemes (i + 1) ((i, word) :: pending) s
    | .closeBracket, [] => before ⟨[], [], [(i, word)]⟩ (ofLexemes (i + 1) [] s)
    | .closeBracket, opening :: pending =>
      before ⟨[(opening.1, i)], [], []⟩ (ofLexemes (i + 1) pending s)
    | _, pending => ofLexemes (i + 1) pending s
  | _ :: s => ofLexemes (i + 1) pending s

/-! ## One lexeme -/

variable {i : Nat} {pending : List (Nat × Word)} {x : Lexeme} {word : Word} {s : List Lexeme}

def IsPlain (x : Lexeme) : Prop := x.role? ≠ some .openBracket ∧ x.role? ≠ some .closeBracket

theorem ofLexemes_plain (h : IsPlain x) :
    ofLexemes i pending (x :: s) = ofLexemes (i + 1) pending s := by
  cases x with
  | symbol word =>
    cases role : word.role with
    | openBracket => exact absurd (congrArg some role) h.1
    | closeBracket => exact absurd (congrArg some role) h.2
    | _ => simp [ofLexemes, role]
  | _ => rfl

theorem ofLexemes_open (role : word.role = .openBracket) :
    ofLexemes i pending (.symbol word :: s) = ofLexemes (i + 1) ((i, word) :: pending) s := by
  simp [ofLexemes, role]

theorem ofLexemes_close (role : word.role = .closeBracket) (opening : Nat × Word) :
    ofLexemes i (opening :: pending) (.symbol word :: s) =
      before ⟨[(opening.1, i)], [], []⟩ (ofLexemes (i + 1) pending s) := by
  simp [ofLexemes, role]

theorem ofLexemes_stray (role : word.role = .closeBracket) :
    ofLexemes i [] (.symbol word :: s) =
      before ⟨[], [], [(i, word)]⟩ (ofLexemes (i + 1) [] s) := by
  simp [ofLexemes, role]

end Brackets

end FormulaMarkup
