import FormulaMarkup.Proofs.Token.Tiling

/-!
# The rules for tokens

Which token stands at a place is told by the text from there on and the token before. The rules give
no scanner: a number and a word are the longest beginnings of their kind among all that there are.
-/

namespace FormulaMarkup

/-! ## The token before -/

/-- A token before that a minus sign can take for its left operand. -/
def OperandBefore (previous : Option Lexeme) : Prop :=
  ∃ x ∈ previous, x.kind = .number ∨ x.kind = .text ∨ x.symbol? = none ∨
    x.role? = some .identifier ∨ x.role? = some .closeBracket ∨ x.role? = some .leftRight

/-- A word before after which a bracket opens verbatim text. -/
def TextAnnounced (previous : Option Lexeme) : Prop :=
  ∃ word, previous = some (.symbol word) ∧ (word.spelling = "text" ∨ word.spelling = "mbox")

theorem Lexeme.isOperand_iff (x : Lexeme) : x.isOperand = true ↔ OperandBefore (some x) := by
  cases x with
  | number n => simp [isOperand, OperandBefore, kind]
  | text body => simp [isOperand, OperandBefore, kind]
  | character c => simp [isOperand, OperandBefore, symbol?]
  | symbol word =>
    have hnumber : (symbol word).kind ≠ .number := by
      rw [kind]
      split <;> decide
    have htext := kind_symbol_ne_text word
    simp only [isOperand, OperandBefore, Option.mem_def, Option.some.injEq, exists_eq_left',
      hnumber, htext, role?_symbol, false_or, symbol?, reduceCtorEq]
    cases word.role <;> simp

theorem Lexeme.announcesText_iff (x : Lexeme) :
    x.announcesText = true ↔ TextAnnounced (some x) := by
  cases x with
  | symbol word => simp [announcesText, TextAnnounced, word.role_eq_text_iff]
  | _ => simp [announcesText, TextAnnounced]

namespace Scan

theorem contextAfter_eq (xs : List Lexeme) :
    contextAfter .start xs = (xs.getLast?.map Context.after).getD .start := by
  rcases List.eq_nil_or_concat xs with rfl | ⟨xs, x, rfl⟩
  · rfl
  · simp [contextAfter]

theorem operandBefore_iff (xs : List Lexeme) :
    (contextAfter .start xs).operandBefore = true ↔ OperandBefore xs.getLast? := by
  rw [contextAfter_eq]
  cases xs.getLast? with
  | none => simp [OperandBefore, Context.start]
  | some x => exact x.isOperand_iff

theorem textAnnounced_iff (xs : List Lexeme) :
    (contextAfter .start xs).textAnnounced = true ↔ TextAnnounced xs.getLast? := by
  rw [contextAfter_eq]
  cases xs.getLast? with
  | none => simp [TextAnnounced, Context.start]
  | some x => exact x.announcesText_iff

end Scan

/-! ## The rules -/

/-- Verbatim text begins here. -/
def TextBegins (previous : Option Lexeme) (rest : List Char) : Prop :=
  rest.head? = some '\x22' ∨
    (rest.head? = some '(' ∨ rest.head? = some '[' ∨ rest.head? = some '\x7b') ∧
      TextAnnounced previous

/-- The kind of a word or mark that stands first in a text. -/
def wordKind (rest : List Char) : TokenKind :=
  if rest.head?.any Text.isLetter then .word else .punctuation

/-- What stands first in `rest`, after the token before, if it is not verbatim text. -/
inductive Lexeme.StandsFirst (previous : Option Lexeme) (rest : List Char) : Lexeme → Prop where
  | number {x : Lexeme}
    (longest : Text.IsLongest (Scan.IsNumber (¬ OperandBefore previous)) rest x.raw.toList)
    (kind : x.kind = .number) : StandsFirst previous rest x
  | word {x : Lexeme}
    (noNumber : ∀ s, s <+: rest → ¬ Scan.IsNumber (¬ OperandBefore previous) s)
    (longest : Text.IsLongest (fun s => s ≠ [] ∧ Word.IsSpelling s) rest x.raw.toList)
    (symbol : x.symbol? = Symbol.lookup x.raw) (kind : x.kind = wordKind rest) :
    StandsFirst previous rest x
  | character {x : Lexeme} (c : Char) (first : rest.head? = some c)
    (noNumber : ∀ s, s <+: rest → ¬ Scan.IsNumber (¬ OperandBefore previous) s)
    (noWord : ∀ s, s <+: rest → s ≠ [] → ¬ Word.IsSpelling s)
    (raw : x.raw.toList = [c]) (symbol : x.symbol? = none) (kind : x.kind = wordKind rest) :
    StandsFirst previous rest x

namespace Scan

variable {context : Context} {previous : Option Lexeme} {c : Char} {s : List Char}

theorem closing?_ne_none_iff : closing? c ≠ none ↔ c = '(' ∨ c = '[' ∨ c = '\x7b' := by
  constructor
  · intro h
    unfold closing? at h
    split at h
    · exact .inl rfl
    · exact .inr (.inl rfl)
    · exact .inr (.inr rfl)
    · exact absurd rfl h
  · rintro (rfl | rfl | rfl) <;> decide

theorem opening_ne_none_iff (htext : context.textAnnounced = true ↔ TextAnnounced previous) :
    (if context.textAnnounced then closing? c else none) ≠ none ↔
      (c = '(' ∨ c = '[' ∨ c = '\x7b') ∧ TextAnnounced previous := by
  rw [← htext, ← closing?_ne_none_iff]
  split
  · next hannounced => simp [hannounced]
  · next hannounced => simp [hannounced]

section

variable (hoperand : context.operandBefore = true ↔ OperandBefore previous)

include hoperand

theorem signed_eq : (context.operandBefore = false) = ¬ OperandBefore previous := by
  rw [← hoperand, Bool.not_eq_true]

theorem not_isNumber (h : number? context.operandBefore (c :: s) = none) :
    ∀ r, r <+: c :: s → ¬ IsNumber (¬ OperandBefore previous) r := by
  intro r hr
  rw [← signed_eq hoperand]
  exact not_isNumber_of_number? h hr

theorem number_standsFirst {n : Numeral} (h : number? context.operandBefore (c :: s) = some n) :
    (Lexeme.number n).StandsFirst previous (c :: s) := by
  refine .number ?_ rfl
  rw [← signed_eq hoperand]
  exact number?_isLongest h

theorem word_standsFirst {word : Word} (hnumber : number? context.operandBefore (c :: s) = none)
    (h : Word.longest? (c :: s) = some word) :
    (Lexeme.symbol word).StandsFirst previous (c :: s) := by
  obtain ⟨hbeginning, hspelling, hlongest⟩ := Word.longest?_isLongest h
  have hkind : (Lexeme.symbol word).kind = wordKind (c :: s) := by
    obtain ⟨d, rest, hd⟩ := List.exists_cons_of_ne_nil word.isSpelling.ne_nil
    have hhead : d = c := by
      rw [hd] at hbeginning
      exact (List.cons_prefix_cons.1 hbeginning).1
    rw [Lexeme.kind, hd, hhead]
    rfl
  exact .word (not_isNumber hoperand hnumber)
    ⟨hbeginning, ⟨word.isSpelling.ne_nil, hspelling⟩, fun r hr h => hlongest r hr h.2⟩
    word.known.symm hkind

theorem character_standsFirst (hnumber : number? context.operandBefore (c :: s) = none)
    (h : Word.longest? (c :: s) = none) :
    (Lexeme.character c).StandsFirst previous (c :: s) :=
  .character c rfl (not_isNumber hoperand hnumber)
    (fun _ hr _ => Word.not_isSpelling_of_longest? h hr) (by simp [Lexeme.raw]) rfl rfl

/-- What is read is what the rules give. -/
theorem lexeme_follows (htext : context.textAnnounced = true ↔ TextAnnounced previous) :
    ((lexeme context c s).1.kind = .text ↔ TextBegins previous (c :: s)) ∧
      ((lexeme context c s).1.kind ≠ .text →
        (lexeme context c s).1.StandsFirst previous (c :: s)) := by
  have hopening := opening_ne_none_iff (c := c) htext
  have hbegins : TextBegins previous (c :: s) ↔
      c = '\x22' ∨ (c = '(' ∨ c = '[' ∨ c = '\x7b') ∧ TextAnnounced previous := by
    simp [TextBegins]
  rw [hbegins, ← hopening]
  unfold lexeme
  split
  · next closing heq =>
    rw [heq]
    exact ⟨by simp [ofText, Lexeme.kind], fun h => absurd rfl h⟩
  · next heq =>
    rw [heq]
    split
    · next hquote => exact ⟨by simp [ofText, Lexeme.kind, hquote], fun h => absurd rfl h⟩
    · next hquote =>
      split
      · next n hn =>
        exact ⟨by simp [Lexeme.kind, hquote], fun _ => number_standsFirst hoperand hn⟩
      · next hn =>
        split
        · next word hword =>
          exact ⟨by simp [Lexeme.kind_symbol_ne_text, hquote],
            fun _ => word_standsFirst hoperand hn hword⟩
        · next hword =>
          exact ⟨by simp [Lexeme.kind_character_ne_text, hquote],
            fun _ => character_standsFirst hoperand hn hword⟩

end

end Scan

/-- Each token of an input is the one that the rules give for its place. -/
theorem lexeme_at {input : String} {earlier later : List Token} {token : Token}
    (h : tokenize input = earlier ++ token :: later) :
    let previous := (earlier.map (·.lexeme)).getLast?
    let rest := Text.dropWidth token.start input.toList
    (token.lexeme.kind = .text ↔ TextBegins previous rest) ∧
      (token.lexeme.kind ≠ .text → token.lexeme.StandsFirst previous rest) := by
  intro previous rest
  have hstands : (Lexer.ofInput input).StandsIn input.toList := ⟨[], rfl, rfl⟩
  obtain ⟨reached, c, s, hreached, hcontext, hskip, rfl⟩ := Lexer.exists_token hstands h
  obtain ⟨before, hinput, hstart⟩ := hreached.token hskip
  have hrest : rest = c :: s := by
    have hmore : (reached.after c s).rest = s.drop (Scan.lexeme reached.context c s).2 := rfl
    rw [List.append_assoc, hmore, List.cons_append, List.take_append_drop] at hinput
    rw [show rest = Text.dropWidth (reached.token c s).start input.toList from rfl, hinput, hstart,
      Text.dropWidth_append]
  have hoperand := Scan.operandBefore_iff (earlier.map (·.lexeme))
  have htext := Scan.textAnnounced_iff (earlier.map (·.lexeme))
  have hstartContext : (Lexer.ofInput input).context = .start := rfl
  rw [← hstartContext, ← hcontext] at hoperand htext
  rw [hrest]
  exact Scan.lexeme_follows hoperand htext

/-- The first minus sign begins a number, and the second, after that number, is a word. -/
theorem lexeme_at_minus :
    let half : Lexeme := .number ⟨true, ".5", by decide⟩
    let minus : Lexeme := .symbol ⟨"-", .operator "-", by decide +kernel⟩
    let one : Lexeme := .number ⟨false, "1", by decide⟩
    tokenize "-.5-1" = [⟨half, 0, 3⟩] ++ ⟨minus, 3, 4⟩ :: [⟨one, 4, 5⟩] ∧
      minus.StandsFirst (some half) ['-', '1'] := by
  intro half minus one
  have htokens : tokenize "-.5-1" = [⟨half, 0, 3⟩] ++ ⟨minus, 3, 4⟩ :: [⟨one, 4, 5⟩] := by
    decide +kernel
  have hkind : minus.kind ≠ .text := by decide
  have hrest : Text.dropWidth 3 ("-.5-1").toList = ['-', '1'] := by decide
  have hstands := (lexeme_at htokens).2 hkind
  rw [hrest] at hstands
  exact ⟨htokens, hstands⟩

end FormulaMarkup
