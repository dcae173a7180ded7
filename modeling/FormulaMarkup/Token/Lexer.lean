import FormulaMarkup.Text.Blank
import FormulaMarkup.Text.Width
import FormulaMarkup.Token.Scan

/-!
# Reading tokens one after another
-/

namespace FormulaMarkup

/-- The input that has not been read yet, and where it begins. -/
structure Lexer where
  context : Scan.Context
  position : Nat
  rest : List Char

namespace Lexer

def ofInput (input : String) : Lexer := ⟨.start, 0, input.toList⟩

/-- Reads the next token. At the end there is none, and none after that. -/
def next (lexer : Lexer) : Option Token × Lexer :=
  let start := lexer.position + Text.width (lexer.rest.takeWhile Text.isBlank)
  match Text.skipBlanks lexer.rest with
  | [] => (none, ⟨lexer.context, start, []⟩)
  | c :: s =>
    let (x, more) := Scan.lexeme lexer.context c s
    let stop := start + Text.width (c :: s.take more)
    (some ⟨x, start, stop⟩, ⟨.after x, stop, s.drop more⟩)

/-- A token takes at least one character. -/
theorem length_next_lt {lexer after : Lexer} {token : Token}
    (h : lexer.next = (some token, after)) : after.rest.length < lexer.rest.length := by
  have hle := Text.length_skipBlanks_le lexer.rest
  unfold next at h
  split at h
  · simp at h
  · next c s hs =>
    rw [hs] at hle
    simp only [Prod.mk.injEq, List.length_cons] at h hle
    rw [← h.2]
    simp only [List.length_drop]
    omega

def tokens (lexer : Lexer) : List Token :=
  match _h : lexer.next with
  | (none, _) => []
  | (some token, after) => token :: after.tokens
termination_by lexer.rest.length
decreasing_by exact length_next_lt _h

end Lexer

def tokenize (input : String) : List Token := (Lexer.ofInput input).tokens

def Token.slice (input : String) (token : Token) : String :=
  String.ofList (Text.slice input.toList token.start token.stop)

def lexemes (input : String) : List Lexeme := (tokenize input).map (·.lexeme)

end FormulaMarkup
