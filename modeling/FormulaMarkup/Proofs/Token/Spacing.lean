import FormulaMarkup.Converter
import FormulaMarkup.Proofs.Token.Tiling

/-!
# Spacing

The tokens of an input can be parted by any blanks, or by other ones, and stay what they are. The
reason is that a lexeme is read from its own text as it is read from the input, and that a blank
after it is no reason for another one.
-/

namespace FormulaMarkup

/-! ## A lexeme on its own -/

namespace Scan

variable {context : Context} {c : Char} {s : List Char}

theorem upTo_cons (closing c : Char) (text : List Char × Bool) :
    upTo closing (c :: text.1, text.2) = c :: upTo closing text := rfl

theorem untilClosing_upTo (opening closing : Char) (depth : Nat) (s : List Char) :
    untilClosing opening closing depth (upTo closing (untilClosing opening closing depth s)) =
      untilClosing opening closing depth s := by
  induction s generalizing depth with
  | nil => rfl
  | cons c s ih =>
    by_cases hopening : c = opening
    · simp only [untilClosing, if_pos hopening, upTo_cons, ih]
    · by_cases hclosing : c = closing
      · subst hclosing
        cases depth with
        | zero => simp [untilClosing, upTo, hopening]
        | succ depth => simp only [untilClosing, if_neg hopening, if_true, upTo_cons, ih]
      · simp only [untilClosing, if_neg hopening, if_neg hclosing, upTo_cons, ih]

theorem untilQuote_upTo (s : List Char) : untilQuote (upTo '\x22' (untilQuote s)) = untilQuote s := by
  induction s with
  | nil => rfl
  | cons c s ih =>
    by_cases hquote : c = '\x22'
    · simp [untilQuote, upTo, hquote]
    · simp only [untilQuote, if_neg hquote, upTo_cons, ih]

/-- Nothing after a lexeme is needed to read it. -/
theorem lexeme_take (context : Context) (c : Char) (s : List Char) :
    lexeme context c (s.take (lexeme context c s).2) = lexeme context c s := by
  have hpart : ∀ n, c :: s.take n <+: c :: s :=
    fun n => List.cons_prefix_cons.2 ⟨rfl, List.take_prefix n s⟩
  cases hopening : if context.textAnnounced then closing? c else none with
  | some closing =>
    simp only [lexeme, hopening]
    rw [(take_ofText (untilClosing_isBeginning c closing 0 s)).2, untilClosing_upTo]
  | none =>
    simp only [lexeme, hopening]
    by_cases hquote : c = '\x22'
    · simp only [if_pos hquote]
      rw [(take_ofText (untilQuote_isBeginning s)).2, untilQuote_upTo]
    · simp only [if_neg hquote]
      cases hn : number? context.operandBefore (c :: s) with
      | some n =>
        have hraw := take_raw (isNumber_of_number? hn).ne_nil (number?_isBeginning hn)
        have hnumber : number? context.operandBefore (c :: s.take (n.raw.length - 1)) = some n :=
          (number?_of_part (hpart _) (by simp [hn, hraw])).trans hn
        simp only [hnumber]
      | none =>
        have hnumber : ∀ n, number? context.operandBefore (c :: s.take n) = none :=
          fun n => (number?_of_part (hpart n) (by simp [hn])).trans hn
        cases hword : Word.longest? (c :: s) with
        | some word =>
          have hraw := take_raw word.isSpelling.ne_nil (Word.longestUpTo_isBeginning hword)
          have hlongest := Word.longest?_of_part (hpart (word.spelling.length - 1))
            (by simp [hword, hraw])
          simp only [hnumber, hlongest, hword]
        | none =>
          have hlongest := Word.longest?_of_part (hpart 0) (by simp [hword])
          simp only [hnumber, hlongest, hword]

theorem lexemes_of_blanks {blanks : List Char} (h : ∀ z ∈ blanks, Text.isBlank z = true)
    (context : Context) (t : List Char) : lexemes context (blanks ++ t) = lexemes context t := by
  have hskip : Text.skipBlanks (blanks ++ t) = Text.skipBlanks t := List.dropWhile_append_of_pos h
  exact lexemes_congr hskip

theorem skipBlanks_of_not_blank (h : Text.isBlank c = false) (s : List Char) :
    Text.skipBlanks (c :: s) = c :: s :=
  List.dropWhile_cons_of_neg (by simp [h])

/-- The text of a lexeme has that lexeme only. -/
theorem lexemes_take (h : Text.isBlank c = false) :
    lexemes context (c :: s.take (lexeme context c s).2) = [(lexeme context c s).1] := by
  rw [lexemes_of_cons (skipBlanks_of_not_blank h _), lexeme_take, List.drop_take_self,
    lexemes_of_nil rfl]

/-- So it is in front of a blank, unless the lexeme goes on to the end of its input. -/
theorem lexemes_take_append (h : Text.isBlank c = false)
    (hmore : s.drop (lexeme context c s).2 ≠ []) {z : Char} (hz : Text.isBlank z = true)
    (t : List Char) :
    lexemes context (c :: s.take (lexeme context c s).2 ++ z :: t) =
      (lexeme context c s).1 :: lexemes (.after (lexeme context c s).1) (z :: t) := by
  have hagain := lexeme_take context c s
  have hclosed : ∀ body, (lexeme context c (s.take (lexeme context c s).2)).1 = .text body →
      Text.width (c :: (s.take (lexeme context c s).2).take
        (lexeme context c (s.take (lexeme context c s).2)).2) = Text.width body.toList + 2 := by
    rw [hagain, List.take_take, Nat.min_self]
    exact fun body hbody => width_text hbody hmore
  have happend := lexeme_append hz t hclosed
  have hlength : (s.take (lexeme context c s).2).length = (lexeme context c s).2 := by
    rw [List.length_take, Nat.min_eq_left (lexeme_le context c s)]
  rw [List.cons_append, lexemes_of_cons (skipBlanks_of_not_blank h _), happend, hagain,
    List.drop_left' hlength]

end Scan

/-! ## Words in a row -/

/-- A word is read from its spelling, unless it would open verbatim text there. -/
theorem Scan.lexemes_spelling {context : Context} (word : Word)
    (htext : context.textAnnounced = true → word.spelling.toList.head?.bind closing? = none) :
    lexemes context word.spelling.toList = [.symbol word] := by
  obtain ⟨hnumber, hquote⟩ := word.spelling_plain
  have hword := word.longest?_spelling
  have hblank := @word.not_isBlank
  have hlength := String.length_toList (s := word.spelling)
  obtain ⟨c, s, hs⟩ := List.exists_cons_of_ne_nil word.isSpelling.ne_nil
  rw [hs] at htext hnumber hquote hword hblank hlength ⊢
  have hc : c ≠ '\x22' := fun h => hquote (congrArg some h)
  have hopening : (if context.textAnnounced then closing? c else none) = none := by
    split
    · next h => exact htext h
    · rfl
  have hplain : number? context.operandBefore (c :: s) = none :=
    (number?_of_none (by simp [hnumber])).trans hnumber
  have hlexeme : lexeme context c s = (.symbol word, s.length) := by
    simp [lexeme, hopening, hc, hplain, hword, ← hlength]
  have hskip := skipBlanks_of_not_blank (hblank List.mem_cons_self) s
  rw [lexemes_of_cons hskip, hlexeme, List.drop_length, lexemes_of_nil rfl]

theorem lexemes_spelling (word : Word) : lexemes word.spelling = [.symbol word] := by
  rw [lexemes_eq]
  exact Scan.lexemes_spelling word nofun

/-- A word that does not announce verbatim text. -/
def Lexeme.IsPlainWord (x : Lexeme) : Prop :=
  ∃ word : Word, x = .symbol word ∧ word.role ≠ .unary .text

/-- Plain words can be written after one another in any order. -/
theorem exists_lexemes_eq {xs : List Lexeme} (h : ∀ x ∈ xs, x.IsPlainWord) :
    ∃ input, lexemes input = xs := by
  induction xs with
  | nil =>
    refine ⟨"", ?_⟩
    rw [lexemes_eq]
    exact Scan.lexemes_of_nil rfl
  | cons x xs ih =>
    rw [List.forall_mem_cons] at h
    obtain ⟨⟨word, rfl, htext⟩, hmore⟩ := h
    obtain ⟨input, rfl⟩ := ih hmore
    refine ⟨word.spelling ++ " " ++ input, ?_⟩
    have hnext : ∀ n, (lexemes input).head? = some (.number n) → n.negative = false := by
      intro n hn
      obtain ⟨other, hother, -⟩ := hmore _ (List.mem_of_head? hn)
      cases hother
    have hword : lexemes word.spelling = [] ++ [.symbol word] := lexemes_spelling word
    have hannounces : (Lexeme.symbol word).announcesText = false := by
      simp [Lexeme.announcesText, htext]
    rw [lexemes_append_of_last hword (by simp) hannounces hnext, hword]
    rfl

/-! ## All lexemes -/

namespace Text

def AreBlanks (s : String) : Prop := ∀ c ∈ s.toList, isBlank c = true

instance (s : String) : Decidable (AreBlanks s) :=
  decidable_of_iff (s.toList.all isBlank = true) List.all_eq_true

/-- The pieces after one another, with `first` before the first of them and the gaps between
them. -/
def spread (first : String) (pieces gaps : List String) : String :=
  first ++ String.join (List.zipWith (· ++ ·) pieces (gaps ++ [""]))

variable {first piece gap : String} {pieces gaps : List String}

@[simp] theorem toList_spread_nil : (spread first [] gaps).toList = first.toList := by
  simp [spread]

@[simp] theorem toList_spread_singleton :
    (spread first [piece] []).toList = first.toList ++ piece.toList := by
  simp [spread]

@[simp] theorem toList_spread_cons :
    (spread first (piece :: pieces) (gap :: gaps)).toList =
      first.toList ++ (piece.toList ++ (spread gap pieces gaps).toList) := by
  simp [spread]

theorem exists_blank_spread (hblanks : AreBlanks first) (hne : first ≠ "")
    (pieces gaps : List String) :
    ∃ z t, isBlank z = true ∧ (spread first pieces gaps).toList = z :: t := by
  obtain ⟨z, more, hmore⟩ := List.exists_cons_of_ne_nil (mt String.toList_eq_nil_iff.1 hne)
  have hz : z ∈ first.toList := by
    rw [hmore]
    exact List.mem_cons_self
  refine ⟨z, more ++ (String.join (List.zipWith (· ++ ·) pieces (gaps ++ [""]))).toList,
    hblanks z hz, ?_⟩
  rw [spread, String.toList_append, hmore, List.cons_append]

end Text

namespace Lexer

theorem StandsIn.toList_slice {lexer : Lexer} {input : String} {c : Char} {s : List Char}
    (hstands : lexer.StandsIn input.toList) (h : Text.skipBlanks lexer.rest = c :: s) :
    ((lexer.token c s).slice input).toList = c :: s.take (Scan.lexeme lexer.context c s).2 := by
  obtain ⟨before, hinput, hstart⟩ := hstands.token h
  exact Token.toList_slice hinput hstart rfl

/-- The slices of the tokens have their lexemes, however they are spread. -/
theorem lexemes_spread {input : String} (lexer : Lexer) (hstands : lexer.StandsIn input.toList)
    {first : String} {gaps : List String} (hfirst : Text.AreBlanks first)
    (hgaps : ∀ gap ∈ gaps, Text.AreBlanks gap ∧ gap ≠ "")
    (hlength : gaps.length = lexer.tokens.length - 1) :
    Scan.lexemes lexer.context
        (Text.spread first (lexer.tokens.map (Token.slice input)) gaps).toList =
      lexer.tokens.map (·.lexeme) := by
  cases h : Text.skipBlanks lexer.rest with
  | nil =>
    have hblanks := Scan.lexemes_of_blanks hfirst lexer.context []
    rw [List.append_nil] at hblanks
    rw [tokens_of_nil h, List.map_nil, Text.toList_spread_nil, hblanks, Scan.lexemes_of_nil rfl]
    rfl
  | cons c s =>
    have hslice := hstands.toList_slice h
    have hblank := Text.not_isBlank_of_skipBlanks h
    rw [tokens_of_cons h, List.length_cons, Nat.add_sub_cancel] at hlength
    rw [tokens_of_cons h, List.map_cons, List.map_cons]
    cases gaps with
    | nil =>
      have hlast : (lexer.after c s).tokens = [] := List.eq_nil_of_length_eq_zero hlength.symm
      rw [hlast, List.map_nil, List.map_nil, Text.toList_spread_singleton,
        Scan.lexemes_of_blanks hfirst, hslice, Scan.lexemes_take hblank]
      rfl
    | cons gap gaps =>
      rw [List.forall_mem_cons] at hgaps
      have hrest : s.drop (Scan.lexeme lexer.context c s).2 ≠ [] := by
        intro hnil
        rw [tokens_after_of_drop hnil] at hlength
        cases hlength
      have hmore := lexemes_spread (lexer.after c s) (hstands.after h) hgaps.1.1 hgaps.2
        (Nat.eq_sub_of_add_eq hlength)
      obtain ⟨z, t, hz, hspread⟩ := Text.exists_blank_spread hgaps.1.1 hgaps.1.2
        ((lexer.after c s).tokens.map (Token.slice input)) gaps
      rw [hspread] at hmore
      rw [Text.toList_spread_cons, Scan.lexemes_of_blanks hfirst, hslice, hspread,
        Scan.lexemes_take_append hblank hrest hz]
      exact congrArg (_ :: ·) hmore
termination_by lexer.rest.length
decreasing_by exact length_after_lt h

end Lexer

/-- Only the slices of the tokens matter. Other blanks between them change neither the lexemes nor
what becomes of them. -/
theorem lexemes_of_spread (input : String) {first : String} {gaps : List String}
    (hfirst : Text.AreBlanks first) (hgaps : ∀ gap ∈ gaps, Text.AreBlanks gap ∧ gap ≠ "")
    (hlength : gaps.length = (tokenize input).length - 1) :
    let spaced := Text.spread first ((tokenize input).map (Token.slice input)) gaps
    lexemes spaced = lexemes input ∧ (∀ settings, compile settings spaced = compile settings input) ∧
      notices spaced = notices input := by
  intro spaced
  have hlexemes : lexemes spaced = lexemes input := by
    rw [lexemes_eq spaced]
    exact Lexer.lexemes_spread (.ofInput input) ⟨[], rfl, rfl⟩ hfirst hgaps hlength
  have hformula : Formula.ofInput spaced = Formula.ofInput input :=
    congrArg Formula.parse hlexemes
  refine ⟨hlexemes, fun settings => ?_, congrArg Term.noticesOfList hformula⟩
  rw [compile, compile, hformula]

/-- With blanks around it a minus sign after a number is still no sign of a number. -/
theorem lexemes_of_spread_minus :
    Text.spread "\t" ((tokenize "1-2.5\"if").map (Token.slice "1-2.5\"if")) [" ", "\n", "  "] =
        "\t1 -\n2.5  \"if" ∧
      lexemes "\t1 -\n2.5  \"if" = lexemes "1-2.5\"if" ∧
      (∀ settings, compile settings "\t1 -\n2.5  \"if" = compile settings "1-2.5\"if") ∧
      notices "\t1 -\n2.5  \"if" = notices "1-2.5\"if" := by
  have hslices : (tokenize "1-2.5\"if").map (Token.slice "1-2.5\"if") =
      ["1", "-", "2.5", "\"if"] := by decide +kernel
  have hspread : Text.spread "\t" ((tokenize "1-2.5\"if").map (Token.slice "1-2.5\"if"))
      [" ", "\n", "  "] = "\t1 -\n2.5  \"if" := by
    rw [hslices]
    decide
  have hfirst : Text.AreBlanks "\t" := by decide
  have hgaps : ∀ gap ∈ [" ", "\n", "  "], Text.AreBlanks gap ∧ gap ≠ "" := by decide
  have hlength : [" ", "\n", "  "].length = (tokenize "1-2.5\"if").length - 1 := by
    decide +kernel
  have h := lexemes_of_spread "1-2.5\"if" hfirst hgaps hlength
  rw [hspread] at h
  exact ⟨hspread, h⟩

end FormulaMarkup
