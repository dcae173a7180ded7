import FormulaMarkup.Proofs.Symbol.Table
import FormulaMarkup.Text.Width
import FormulaMarkup.Token.Scan

/-!
# One lexeme and the characters around it

A lexeme is a beginning of the text it is looked for in, and a blank after it is no reason for
another one. Only verbatim text without its closing delimiter goes on.
-/

namespace FormulaMarkup

/-! ## Words -/

namespace Word

theorem spelling_of_ofSpelling? {spelling : String} {word : Word}
    (h : ofSpelling? spelling = some word) : word.spelling = spelling := by
  unfold ofSpelling? at h
  split at h
  · cases h
  · cases h
    rfl

theorem longestUpTo_isBeginning {n : Nat} {s : List Char} {word : Word}
    (h : longestUpTo n s = some word) : word.spelling.toList <+: s := by
  induction n with
  | zero => cases h
  | succ n ih =>
    rw [longestUpTo] at h
    split at h
    · next found hfound =>
      cases h
      rw [spelling_of_ofSpelling? hfound, String.toList_ofList]
      exact List.take_prefix _ _
    · exact ih h

/-- No word is looked for beyond a blank. -/
theorem ofSpelling?_of_blank {s : List Char} {c : Char} (hmem : c ∈ s)
    (hblank : Text.isBlank c = true) : ofSpelling? (String.ofList s) = none := by
  cases h : ofSpelling? (String.ofList s) with
  | none => rfl
  | some word =>
    have hc : c ∈ word.spelling.toList := by
      rw [spelling_of_ofSpelling? h, String.toList_ofList]
      exact hmem
    rw [word.not_isBlank hc] at hblank
    cases hblank

/-- The whole text is tried first. -/
theorem longestUpTo_of_length_le {n : Nat} {s : List Char} (h : s.length ≤ n) :
    longestUpTo (n + 1) s = longestUpTo n s := by
  cases n with
  | zero =>
    rw [List.eq_nil_of_length_eq_zero (Nat.le_zero.1 h)]
    decide
  | succ n =>
    rw [longestUpTo, List.take_of_length_le (Nat.le_succ_of_le h)]
    split
    · next word hword => rw [longestUpTo, List.take_of_length_le h, hword]
    · rfl

theorem longestUpTo_append {z : Char} (hz : Text.isBlank z = true) (n : Nat) (s t : List Char) :
    longestUpTo n (s ++ z :: t) = longestUpTo n s := by
  induction n with
  | zero => rfl
  | succ n ih =>
    by_cases h : n + 1 ≤ s.length
    · rw [longestUpTo, longestUpTo, List.take_append_of_le_length h, ih]
    · have hlength : s.length ≤ n := by omega
      have hmem : z ∈ (s ++ z :: t).take (n + 1) := by
        rw [List.take_append, List.take_of_length_le (by omega)]
        have hsucc : n + 1 - s.length = (n - s.length) + 1 := by omega
        rw [hsucc, List.take_succ_cons]
        simp
      rw [longestUpTo, ofSpelling?_of_blank hmem hz, longestUpTo_of_length_le hlength]
      exact ih

theorem longest?_append {z : Char} (hz : Text.isBlank z = true) (s t : List Char) :
    longest? (s ++ z :: t) = longest? s :=
  longestUpTo_append hz _ s t

end Word

namespace Scan

/-! ## Verbatim text -/

/-- A text that stops at a delimiter, and the delimiter if there is one. -/
def upTo (closing : Char) (text : List Char × Bool) : List Char :=
  text.1 ++ if text.2 then [closing] else []

theorem untilClosing_isBeginning (opening closing : Char) (depth : Nat) (s : List Char) :
    upTo closing (untilClosing opening closing depth s) <+: s := by
  induction s generalizing depth with
  | nil => simp [untilClosing, upTo]
  | cons c s ih =>
    simp only [untilClosing]
    split
    · simpa [upTo] using ih (depth + 1)
    · split
      · next hclosing =>
        cases depth with
        | zero => simp [upTo, hclosing]
        | succ depth => simpa [upTo] using ih depth
      · simpa [upTo] using ih depth

theorem untilClosing_append {opening closing : Char} {depth : Nat} {s : List Char}
    (h : (untilClosing opening closing depth s).2 = true) (t : List Char) :
    untilClosing opening closing depth (s ++ t) = untilClosing opening closing depth s := by
  induction s generalizing depth with
  | nil => cases h
  | cons c s ih =>
    simp only [untilClosing, List.cons_append] at h ⊢
    split
    · next hopening =>
      rw [if_pos hopening] at h
      rw [ih h]
    · next hopening =>
      rw [if_neg hopening] at h
      split
      · next hclosing =>
        rw [if_pos hclosing] at h
        cases depth with
        | zero => rfl
        | succ depth => simp only [ih h]
      · next hclosing =>
        rw [if_neg hclosing] at h
        rw [ih h]

/-- Without its closing bracket a text goes on to the end. -/
theorem untilClosing_of_open {opening closing : Char} {depth : Nat} {s : List Char}
    (h : (untilClosing opening closing depth s).2 = false) :
    (untilClosing opening closing depth s).1 = s := by
  induction s generalizing depth with
  | nil => rfl
  | cons c s ih =>
    simp only [untilClosing] at h ⊢
    split
    · next hopening =>
      rw [if_pos hopening] at h
      rw [ih h]
    · next hopening =>
      rw [if_neg hopening] at h
      split
      · next hclosing =>
        rw [if_pos hclosing] at h
        cases depth with
        | zero => cases h
        | succ depth => simp only [ih h]
      · next hclosing =>
        rw [if_neg hclosing] at h
        rw [ih h]

theorem untilQuote_isBeginning (s : List Char) : upTo '\x22' (untilQuote s) <+: s := by
  induction s with
  | nil => simp [untilQuote, upTo]
  | cons c s ih =>
    simp only [untilQuote]
    split
    · next hquote => simp [upTo, hquote]
    · simpa [upTo] using ih

theorem untilQuote_append {s : List Char} (h : (untilQuote s).2 = true) (t : List Char) :
    untilQuote (s ++ t) = untilQuote s := by
  induction s with
  | nil => cases h
  | cons c s ih =>
    simp only [untilQuote, List.cons_append] at h ⊢
    split
    · rfl
    · next hquote =>
      rw [if_neg hquote] at h
      rw [ih h]

theorem untilQuote_of_open {s : List Char} (h : (untilQuote s).2 = false) :
    (untilQuote s).1 = s := by
  induction s with
  | nil => rfl
  | cons c s ih =>
    simp only [untilQuote] at h ⊢
    split
    · next hquote =>
      rw [if_pos hquote] at h
      cases h
    · next hquote =>
      rw [if_neg hquote] at h
      rw [ih h]

/-! ## Numbers -/

/-- A number is digits, or digits, a point and more digits. -/
theorem unsigned_eq (s : List Char) :
    unsigned s = s.takeWhile Char.isDigit ∨
      ∃ t, s.dropWhile Char.isDigit = '.' :: t ∧ t.takeWhile Char.isDigit ≠ [] ∧
        unsigned s = s.takeWhile Char.isDigit ++ '.' :: t.takeWhile Char.isDigit := by
  unfold unsigned
  split
  · next t ht =>
    split
    · exact .inl rfl
    · next c decimals hdecimals =>
      refine .inr ⟨t, ht, ?_, by rw [hdecimals]⟩
      rw [hdecimals]
      exact List.cons_ne_nil _ _
  · exact .inl rfl

theorem unsigned_isBeginning (s : List Char) : unsigned s <+: s := by
  rcases unsigned_eq s with h | ⟨t, ht, -, h⟩
  · rw [h]
    exact List.takeWhile_prefix _
  · obtain ⟨rest, hrest⟩ := List.takeWhile_prefix (l := t) Char.isDigit
    refine ⟨rest, ?_⟩
    rw [h, List.append_assoc, List.cons_append, hrest, ← ht, List.takeWhile_append_dropWhile]

theorem isDigit_of_mem_unsigned {s : List Char} {c : Char} (h : c ∈ unsigned s) :
    c.isDigit = true ∨ c = '.' := by
  have hdigit : ∀ t : List Char, c ∈ t.takeWhile Char.isDigit → c.isDigit = true :=
    fun t => List.all_eq_true.1 List.all_takeWhile c
  rcases unsigned_eq s with heq | ⟨t, -, -, heq⟩
  · rw [heq] at h
    exact .inl (hdigit s h)
  · rw [heq] at h
    rcases List.mem_append.1 h with h | h
    · exact .inl (hdigit s h)
    · rcases List.mem_cons.1 h with h | h
      · exact .inr h
      · exact .inl (hdigit t h)

theorem takeWhile_append_of_neg {p : Char → Bool} {z : Char} (hz : p z = false) (s t : List Char) :
    (s ++ z :: t).takeWhile p = s.takeWhile p := by
  induction s with
  | nil => simp [hz]
  | cons c s ih => simp [List.takeWhile_cons, ih]

theorem dropWhile_append_of_neg {p : Char → Bool} {z : Char} (hz : p z = false) (s t : List Char) :
    (s ++ z :: t).dropWhile p = s.dropWhile p ++ z :: t := by
  induction s with
  | nil => simp [hz]
  | cons c s ih =>
    rw [List.cons_append, List.dropWhile_cons, List.dropWhile_cons, ih]
    split <;> rfl

theorem not_isDigit_of_isBlank {z : Char} (hz : Text.isBlank z = true) : z.isDigit = false := by
  obtain ⟨range, hrange, hlo, hhi⟩ := Text.exists_of_inRanges hz
  have houtside : ∀ range ∈ Text.blankRanges, range.2 < 48 ∨ 57 < range.1 := by decide
  have hcases := houtside range hrange
  rw [← Bool.not_eq_true]
  intro hdigit
  simp only [Char.isDigit, Bool.and_eq_true, decide_eq_true_eq, ge_iff_le, UInt32.le_iff_toNat_le]
    at hdigit
  obtain ⟨hge, hle⟩ := hdigit
  change 48 ≤ z.toNat at hge
  change z.toNat ≤ 57 at hle
  omega

theorem unsigned_append {z : Char} (hz : Text.isBlank z = true) (s t : List Char) :
    unsigned (s ++ z :: t) = unsigned s := by
  have hdigit := not_isDigit_of_isBlank hz
  have hpoint : z ≠ '.' := by
    rintro rfl
    revert hz
    decide
  unfold unsigned
  rw [takeWhile_append_of_neg hdigit, dropWhile_append_of_neg hdigit]
  cases s.dropWhile Char.isDigit with
  | nil =>
    rw [List.nil_append]
    split
    · next h => exact absurd (List.cons.inj h).1 hpoint
    · rfl
  | cons c rest =>
    rw [List.cons_append]
    by_cases hc : c = '.'
    · subst hc
      simp only [takeWhile_append_of_neg hdigit]
    · split
      · next h => exact absurd (List.cons.inj h).1 hc
      · split
        · next h => exact absurd (List.cons.inj h).1 hc
        · rfl

theorem numeral?_eq {negative : Bool} {digits : List Char} {n : Numeral}
    (h : numeral? negative digits = some n) :
    n.negative = negative ∧ n.digits.toList = digits ∧ digits ≠ [] := by
  cases digits with
  | nil => cases h
  | cons c digits =>
    cases h
    exact ⟨rfl, String.toList_ofList, nofun⟩

/-- A number is read from digits, after a minus sign where one may be. -/
theorem number?_eq {operandBefore : Bool} {s : List Char} {n : Numeral}
    (h : number? operandBefore s = some n) :
    n.negative = false ∧ n.digits.toList = unsigned s ∨
      ∃ t, s = '-' :: t ∧ operandBefore = false ∧ n.negative = true ∧
        n.digits.toList = unsigned t := by
  unfold number? at h
  split at h
  · next t =>
    obtain ⟨hnegative, hdigits, -⟩ := numeral?_eq h
    exact .inr ⟨t, rfl, rfl, hnegative, hdigits⟩
  · obtain ⟨hnegative, hdigits, -⟩ := numeral?_eq h
    exact .inl ⟨hnegative, hdigits⟩

theorem number?_isBeginning {operandBefore : Bool} {s : List Char} {n : Numeral}
    (h : number? operandBefore s = some n) : n.raw.toList <+: s := by
  rcases number?_eq h with ⟨hnegative, hdigits⟩ | ⟨t, rfl, -, hnegative, hdigits⟩
  · simpa [Numeral.raw, hnegative, hdigits] using unsigned_isBeginning s
  · simpa [Numeral.raw, hnegative, hdigits] using unsigned_isBeginning t

theorem number?_of_plain {operandBefore : Bool} {s : List Char}
    (h : operandBefore = false → s.head? ≠ some '-') :
    number? operandBefore s = numeral? false (unsigned s) := by
  unfold number?
  split
  · exact absurd rfl (h rfl)
  · rfl

theorem number?_append {z : Char} (hz : Text.isBlank z = true) (operandBefore : Bool) (c : Char)
    (s t : List Char) :
    number? operandBefore (c :: s ++ z :: t) = number? operandBefore (c :: s) := by
  by_cases hminus : operandBefore = false ∧ c = '-'
  · obtain ⟨rfl, rfl⟩ := hminus
    simp only [number?, List.cons_append, unsigned_append hz]
  · have hplain : operandBefore = false → some c ≠ some '-' :=
      fun hbefore hc => hminus ⟨hbefore, Option.some.inj hc⟩
    rw [number?_of_plain (s := c :: s) hplain, number?_of_plain (s := c :: s ++ z :: t) hplain,
      unsigned_append hz]

/-- The digits of a number have no sign. -/
theorem number?_digits {operandBefore : Bool} {s : List Char} {n : Numeral}
    (h : number? operandBefore s = some n) : ∀ c ∈ n.digits.toList, c ≠ '-' := by
  have hunsigned : ∀ t : List Char, ∀ c ∈ unsigned t, c ≠ '-' := by
    rintro t c hc rfl
    rcases isDigit_of_mem_unsigned hc with h | h
    · revert h
      decide
    · revert h
      decide
  rcases number?_eq h with ⟨-, hdigits⟩ | ⟨t, -, -, -, hdigits⟩
  · rw [hdigits]
    exact hunsigned s
  · rw [hdigits]
    exact hunsigned t

/-! ## Lexemes -/

variable {context : Context} {c : Char} {s : List Char}

theorem take_ofText {closing : Char} {text : List Char × Bool} (h : upTo closing text <+: s) :
    (ofText text).2 ≤ s.length ∧ s.take (ofText text).2 = upTo closing text := by
  have hlength : (upTo closing text).length = (ofText text).2 := by
    cases hclosed : text.2 <;> simp [upTo, ofText, hclosed]
  rw [← hlength]
  exact ⟨h.length_le, (List.prefix_iff_eq_take.1 h).symm⟩

theorem le_of_isBeginning {raw : String} (h : raw.toList <+: c :: s) :
    raw.length - 1 ≤ s.length := by
  have hle := h.length_le
  rw [String.length_toList, List.length_cons] at hle
  omega

/-- A lexeme is part of the text it is looked for in. -/
theorem lexeme_le (context : Context) (c : Char) (s : List Char) :
    (lexeme context c s).2 ≤ s.length := by
  unfold lexeme
  split
  · exact (take_ofText (untilClosing_isBeginning _ _ _ _)).1
  · split
    · exact (take_ofText (untilQuote_isBeginning _)).1
    · split
      · next n hn => exact le_of_isBeginning (number?_isBeginning hn)
      · split
        · next word hword => exact le_of_isBeginning (Word.longestUpTo_isBeginning hword)
        · exact Nat.zero_le _

theorem size_of_closing? {closing : Char} (h : closing? c = some closing) : c.utf8Size = 1 := by
  unfold closing? at h
  split at h
  · decide
  · decide
  · decide
  · cases h

/-- With both delimiters, verbatim text is wider than its body by two. -/
theorem ofText_of_width {closing : Char} {text : List Char × Bool} {body : String}
    (hc : c.utf8Size = 1) (hbeginning : upTo closing text <+: s)
    (hbody : (ofText text).1 = .text body)
    (hwidth : Text.width (c :: s.take (ofText text).2) = Text.width body.toList + 2) :
    text.2 = true := by
  simp only [ofText, Lexeme.text.injEq] at hbody
  rw [(take_ofText hbeginning).2, ← hbody, String.toList_ofList, Text.width_cons, hc] at hwidth
  cases hclosed : text.2 with
  | true => rfl
  | false =>
    simp only [upTo, hclosed, Bool.false_eq_true, if_false, List.append_nil] at hwidth
    omega

theorem size_closing {closing : Char} (h : closing? c = some closing) : closing.utf8Size = 1 := by
  unfold closing? at h
  split at h <;> cases h <;> decide

/-- Verbatim text after which something is left has both delimiters. -/
theorem width_ofText {closing : Char} {text : List Char × Bool} {body : String}
    (hc : c.utf8Size = 1) (hclosing : closing.utf8Size = 1) (hbeginning : upTo closing text <+: s)
    (hopen : text.2 = false → text.1 = s) (hbody : (ofText text).1 = .text body)
    (hmore : s.drop (ofText text).2 ≠ []) :
    Text.width (c :: s.take (ofText text).2) = Text.width body.toList + 2 := by
  simp only [ofText, Lexeme.text.injEq] at hbody
  cases hclosed : text.2 with
  | true =>
    rw [(take_ofText hbeginning).2, ← hbody, String.toList_ofList]
    simp only [upTo, hclosed, if_true, Text.width_cons, Text.width_append, Text.width_nil, hc,
      hclosing]
    omega
  | false =>
    refine absurd (List.drop_eq_nil_of_le ?_) hmore
    simp [ofText, hclosed, hopen hclosed]

theorem width_text {body : String} (h : (lexeme context c s).1 = .text body)
    (hmore : s.drop (lexeme context c s).2 ≠ []) :
    Text.width (c :: s.take (lexeme context c s).2) = Text.width body.toList + 2 := by
  unfold lexeme at h hmore ⊢
  cases hopening : if context.textAnnounced then closing? c else none with
  | some closing =>
    rw [hopening] at h hmore
    have hsome : closing? c = some closing := by
      split at hopening
      · exact hopening
      · cases hopening
    exact width_ofText (size_of_closing? hsome) (size_closing hsome)
      (untilClosing_isBeginning c closing 0 s) untilClosing_of_open h hmore
  | none =>
    rw [hopening] at h hmore
    by_cases hquote : c = '\x22'
    · subst hquote
      exact width_ofText (by decide) (by decide) (untilQuote_isBeginning s) untilQuote_of_open h
        hmore
    · simp only [if_neg hquote] at h
      split at h
      · cases h
      · split at h <;> cases h

/-- A blank ends every lexeme but verbatim text without its closing delimiter. -/
theorem lexeme_append {z : Char} (hz : Text.isBlank z = true) (t : List Char)
    (h : ∀ body, (lexeme context c s).1 = .text body →
      Text.width (c :: s.take (lexeme context c s).2) = Text.width body.toList + 2) :
    lexeme context c (s ++ z :: t) = lexeme context c s := by
  have hnumber := number?_append hz context.operandBefore c s t
  have hword := Word.longest?_append hz (c :: s) t
  rw [List.cons_append] at hnumber hword
  unfold lexeme at h ⊢
  rw [hnumber, hword]
  cases hopening : if context.textAnnounced then closing? c else none with
  | some closing =>
    rw [hopening] at h
    have hsize : c.utf8Size = 1 := by
      split at hopening
      · exact size_of_closing? hopening
      · cases hopening
    have hclosed := ofText_of_width hsize (untilClosing_isBeginning c closing 0 s) rfl (h _ rfl)
    simp only [untilClosing_append hclosed]
  | none =>
    rw [hopening] at h
    by_cases hquote : c = '\x22'
    · subst hquote
      have hsize : ('\x22').utf8Size = 1 := by decide
      have hclosed := ofText_of_width hsize (untilQuote_isBeginning s) rfl (h _ rfl)
      simp only [untilQuote_append hclosed]
    · simp only [if_neg hquote]

theorem number?_of_lexeme {n : Numeral} (h : (lexeme context c s).1 = .number n) :
    number? context.operandBefore (c :: s) = some n := by
  unfold lexeme at h
  split at h
  · cases h
  · split at h
    · cases h
    · split at h
      · next hn =>
        cases h
        exact hn
      · split at h <;> cases h

/-- Where no verbatim text is announced, the context matters to a minus sign only. -/
theorem lexeme_of_context {context other : Context} (h : context.textAnnounced = false)
    (h' : other.textAnnounced = false)
    (hnumber : c ≠ '\x22' →
      number? context.operandBefore (c :: s) = number? other.operandBefore (c :: s)) :
    lexeme context c s = lexeme other c s := by
  by_cases hquote : c = '\x22'
  · simp [lexeme, h, h', hquote]
  · simp [lexeme, h, h', hnumber hquote]

theorem lexeme_of_number? {n : Numeral} (h : context.textAnnounced = false) (hquote : c ≠ '\x22')
    (hn : number? context.operandBefore (c :: s) = some n) :
    (lexeme context c s).1 = .number n := by
  simp [lexeme, h, hquote, hn]

/-- A minus sign that begins no number for lack of digits begins none after an operand. -/
theorem number?_of_none {operandBefore : Bool} {t : List Char}
    (h : ∀ n, number? false t = some n → n.negative = false) :
    number? operandBefore t = number? false t := by
  cases operandBefore with
  | false => rfl
  | true =>
    by_cases hminus : t.head? = some '-'
    · obtain ⟨rest, rfl⟩ := List.head?_eq_some_iff.1 hminus
      have hnone : number? false ('-' :: rest) = none := by
        cases hn : number? false ('-' :: rest) with
        | none => rfl
        | some n =>
          have hnumeral : numeral? true (unsigned rest) = some n := hn
          exact absurd (h n hn) (by rw [(numeral?_eq hnumeral).1]; decide)
      have hunsigned : unsigned ('-' :: rest) = [] := by
        simp [unsigned, Char.isDigit]
      rw [hnone, number?_of_plain (by simp), hunsigned]
      rfl
    · rw [number?_of_plain fun _ => hminus, number?_of_plain fun _ => hminus]

end Scan

end FormulaMarkup
