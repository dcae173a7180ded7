import FormulaMarkup.Proofs.Token.Spacing

/-!
# Words between texts

What stands after a word that is no operand is read as it is on its own, and so is what stands
before the word, if no verbatim text goes on beyond it.
-/

namespace FormulaMarkup

variable {a b : String} {word : Word}

/-- After a word that is no operand, even a minus sign is read as it is at the beginning. -/
theorem lexemes_word_append (htext : (Lexeme.symbol word).announcesText = false)
    (hoperand : (Lexeme.symbol word).isOperand = false) :
    lexemes (word.spelling ++ " " ++ b) = .symbol word :: lexemes b := by
  have hword : lexemes word.spelling = [] ++ [.symbol word] := lexemes_spelling word
  have hclosed : IsClosed word.spelling := isClosed_of_last hword (by simp) htext
  have happend := Lexer.lexemes_append (z := ' ') (by decide) b.toList (.ofInput word.spelling)
    hclosed.terminated
  have hcontext : Scan.Context.after (.symbol word) = .start := by
    simp [Scan.Context.after, Scan.Context.start, htext, hoperand]
  have hinput : (word.spelling ++ " " ++ b).toList = word.spelling.toList ++ ' ' :: b.toList := by
    simp
  simp only [Lexer.ofInput, ← lexemes_eq, lexemes_spelling] at happend
  rw [lexemes_eq, hinput, happend, lexemes_eq b, ← hcontext]
  rfl

theorem IsClosed.lexemes_append_word (ha : IsClosed a)
    (htext : (Lexeme.symbol word).announcesText = false)
    (hoperand : (Lexeme.symbol word).isOperand = false) :
    lexemes (a ++ " " ++ (word.spelling ++ " " ++ b)) = lexemes a ++ .symbol word :: lexemes b := by
  have hword := lexemes_word_append (b := b) htext hoperand
  rw [ha.lexemes_append (by rw [hword]; nofun), hword]

end FormulaMarkup
