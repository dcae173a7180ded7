import FormulaMarkup.Proofs.Token.Longest
import FormulaMarkup.Proofs.Token.Run

/-!
# Where the tokens stand

The tokens of an input lie in it one after another, and each covers what it says. Only blanks stand
outside of them.
-/

namespace FormulaMarkup

/-! ## How a lexeme is written -/

/-- The delimiters of verbatim text. -/
inductive Delimits : (opening closing : Char) → Prop where
  | quotes : Delimits '\x22' '\x22'
  | parentheses : Delimits '(' ')'
  | brackets : Delimits '[' ']'
  | braces : Delimits '\x7b' '\x7d'

/-- `written` is how the lexeme stands in a text in front of `rest`. Verbatim text stands between
delimiters. The closing one may be missing at the end of the text. -/
inductive Lexeme.Stands : Lexeme → (written rest : List Char) → Prop where
  | plain {x : Lexeme} {rest : List Char} (h : x.kind ≠ .text) : Stands x x.raw.toList rest
  | closed {body : String} {opening closing : Char} {rest : List Char}
    (h : Delimits opening closing) :
    Stands (.text body) (opening :: (body.toList ++ [closing])) rest
  | unclosed {body : String} {opening closing : Char} (h : Delimits opening closing) :
    Stands (.text body) (opening :: body.toList) []

namespace Lexeme

variable {x : Lexeme} {written rest : List Char}

theorem Stands.plain_eq (h : x.Stands written rest) (hkind : x.kind ≠ .text) :
    written = x.raw.toList := by
  cases h with
  | plain => rfl
  | closed => exact absurd rfl hkind
  | unclosed => exact absurd rfl hkind

theorem Stands.verbatim_eq (h : x.Stands written rest) (hkind : x.kind = .text) :
    ∃ opening closing, Delimits opening closing ∧
      (written = opening :: (x.raw.toList ++ [closing]) ∨
        written = opening :: x.raw.toList ∧ rest = []) := by
  cases h with
  | plain hplain => exact absurd hkind hplain
  | closed hdelimits => exact ⟨_, _, hdelimits, .inl rfl⟩
  | unclosed hdelimits => exact ⟨_, _, hdelimits, .inr ⟨rfl, rfl⟩⟩

theorem kind_symbol_ne_text (word : Word) : (Lexeme.symbol word).kind ≠ .text := by
  rw [kind]
  split <;> decide

theorem kind_character_ne_text (c : Char) : (Lexeme.character c).kind ≠ .text := by
  rw [kind]
  split <;> decide

end Lexeme

namespace Scan

variable {context : Context} {c : Char} {s : List Char}

theorem delimits_of_closing? {closing : Char} (h : closing? c = some closing) :
    Delimits c closing := by
  unfold closing? at h
  split at h
  · cases h
    exact .parentheses
  · cases h
    exact .brackets
  · cases h
    exact .braces
  · cases h

theorem ofText_stands {closing : Char} {text : List Char × Bool} (h : Delimits c closing)
    (hbeginning : upTo closing text <+: s) (hopen : text.2 = false → text.1 = s) :
    (ofText text).1.Stands (c :: s.take (ofText text).2) (s.drop (ofText text).2) := by
  rw [(take_ofText hbeginning).2]
  obtain ⟨body, closed⟩ := text
  cases closed with
  | true =>
    have hclosed : (Lexeme.text (String.ofList body)).Stands
        (c :: ((String.ofList body).toList ++ [closing])) (s.drop (body.length + 1)) := .closed h
    simpa [ofText, upTo] using hclosed
  | false =>
    have hbody : body = s := hopen rfl
    subst hbody
    have hunclosed : (Lexeme.text (String.ofList body)).Stands
        (c :: (String.ofList body).toList) [] := .unclosed h
    simpa [ofText, upTo] using hunclosed

theorem take_raw {raw : String} (hne : raw.toList ≠ []) (h : raw.toList <+: c :: s) :
    c :: s.take (raw.length - 1) = raw.toList := by
  have hlength := List.length_pos_iff.2 hne
  have hsucc : raw.length = raw.length - 1 + 1 := by
    rw [String.length_toList] at hlength
    omega
  rw [← List.take_succ_cons, ← hsucc, ← String.length_toList]
  exact (List.prefix_iff_eq_take.1 h).symm

theorem plain_stands {x : Lexeme} (hkind : x.kind ≠ .text) (hne : x.raw.toList ≠ [])
    (h : x.raw.toList <+: c :: s) (rest : List Char) :
    x.Stands (c :: s.take (x.raw.length - 1)) rest := by
  rw [take_raw hne h]
  exact .plain hkind

/-- The lexeme that is read stands at the head of the text. -/
theorem lexeme_stands (context : Context) (c : Char) (s : List Char) :
    (lexeme context c s).1.Stands (c :: s.take (lexeme context c s).2)
      (s.drop (lexeme context c s).2) := by
  unfold lexeme
  split
  · next closing hopening =>
    have hclosing : closing? c = some closing := by
      split at hopening
      · exact hopening
      · cases hopening
    exact ofText_stands (delimits_of_closing? hclosing) (untilClosing_isBeginning c closing 0 s)
      untilClosing_of_open
  · split
    · next hquote =>
      subst hquote
      exact ofText_stands .quotes (untilQuote_isBeginning s) untilQuote_of_open
    · split
      · next n hn =>
        exact plain_stands (x := .number n) (by simp [Lexeme.kind]) (isNumber_of_number? hn).ne_nil
          (number?_isBeginning hn) _
      · split
        · next word hword =>
          exact plain_stands (Lexeme.kind_symbol_ne_text word) word.isSpelling.ne_nil
            (Word.longestUpTo_isBeginning hword) _
        · have hraw : (Lexeme.character c).raw.toList = [c] := by simp [Lexeme.raw]
          have hstands : (Lexeme.character c).Stands [c] s :=
            hraw ▸ .plain (Lexeme.kind_character_ne_text c)
          exact hstands

end Scan

/-! ## Reading on -/

theorem Text.not_isBlank_of_skipBlanks {t s : List Char} {c : Char} (h : skipBlanks t = c :: s) :
    isBlank c = false := by
  have hhead := List.head?_dropWhile_not isBlank t
  rw [← skipBlanks, h] at hhead
  simpa using hhead

namespace Lexer

/-- What has been read and what is left make up the text. -/
def StandsIn (lexer : Lexer) (text : List Char) : Prop :=
  ∃ before, text = before ++ lexer.rest ∧ lexer.position = Text.width before

variable {lexer : Lexer} {text : List Char} {c : Char} {s : List Char}

theorem rest_eq (h : Text.skipBlanks lexer.rest = c :: s) :
    lexer.rest = lexer.rest.takeWhile Text.isBlank ++
      (c :: s.take (Scan.lexeme lexer.context c s).2 ++
        s.drop (Scan.lexeme lexer.context c s).2) := by
  rw [List.cons_append, List.take_append_drop, ← h, Text.skipBlanks,
    List.takeWhile_append_dropWhile]

theorem StandsIn.token (hstands : lexer.StandsIn text) (h : Text.skipBlanks lexer.rest = c :: s) :
    ∃ before, text = before ++ (c :: s.take (Scan.lexeme lexer.context c s).2) ++
        (lexer.after c s).rest ∧
      (lexer.token c s).start = Text.width before := by
  obtain ⟨before, rfl, hposition⟩ := hstands
  refine ⟨before ++ lexer.rest.takeWhile Text.isBlank, ?_, ?_⟩
  · rw [List.append_assoc, List.append_assoc]
    exact congrArg (before ++ ·) (rest_eq h)
  · rw [Text.width_append, ← hposition]
    rfl

theorem StandsIn.after (hstands : lexer.StandsIn text) (h : Text.skipBlanks lexer.rest = c :: s) :
    (lexer.after c s).StandsIn text := by
  obtain ⟨before, htext, hstart⟩ := hstands.token h
  refine ⟨_, htext, ?_⟩
  rw [Text.width_append, ← hstart]
  rfl

/-- Where a token is read, after the ones before it. -/
theorem exists_token {earlier later : List Token} {token : Token} (hstands : lexer.StandsIn text)
    (h : lexer.tokens = earlier ++ token :: later) :
    ∃ (reached : Lexer) (c : Char) (s : List Char), reached.StandsIn text ∧
      reached.context = Scan.contextAfter lexer.context (earlier.map (·.lexeme)) ∧
      Text.skipBlanks reached.rest = c :: s ∧ token = reached.token c s := by
  induction earlier generalizing lexer with
  | nil =>
    cases hs : Text.skipBlanks lexer.rest with
    | nil =>
      rw [tokens_of_nil hs] at h
      cases h
    | cons c s =>
      rw [tokens_of_cons hs] at h
      exact ⟨lexer, c, s, hstands, rfl, hs, (List.cons.inj h).1.symm⟩
  | cons first earlier ih =>
    cases hs : Text.skipBlanks lexer.rest with
    | nil =>
      rw [tokens_of_nil hs] at h
      cases h
    | cons c s =>
      rw [tokens_of_cons hs] at h
      obtain ⟨rfl, hmore⟩ := List.cons.inj h
      exact ih (hstands.after hs) hmore

/-! ## Order -/

theorem position_le_start (lexer : Lexer) : ∀ token ∈ lexer.tokens, lexer.position ≤ token.start := by
  cases h : Text.skipBlanks lexer.rest with
  | nil =>
    rw [tokens_of_nil h]
    exact List.forall_mem_nil _
  | cons c s =>
    have hstart : lexer.position ≤ (lexer.token c s).start := Nat.le_add_right _ _
    have hstop : (lexer.token c s).start ≤ (lexer.after c s).position := Nat.le_add_right _ _
    rw [tokens_of_cons h, List.forall_mem_cons]
    exact ⟨hstart, fun token htoken =>
      Nat.le_trans (Nat.le_trans hstart hstop) (position_le_start (lexer.after c s) token htoken)⟩
termination_by lexer.rest.length
decreasing_by exact length_after_lt h

theorem tokens_pairwise (lexer : Lexer) :
    lexer.tokens.Pairwise fun token next => token.stop ≤ next.start := by
  cases h : Text.skipBlanks lexer.rest with
  | nil =>
    rw [tokens_of_nil h]
    exact .nil
  | cons c s =>
    rw [tokens_of_cons h]
    exact .cons (lexer.after c s).position_le_start (tokens_pairwise (lexer.after c s))
termination_by lexer.rest.length
decreasing_by exact length_after_lt h

/-- A character of two texts together is in the first or in the second. -/
theorem split_append {first second before after : List Char} {c : Char}
    (h : first ++ second = before ++ c :: after) :
    (∃ more, first = before ++ c :: more) ∨
      ∃ more, before = first ++ more ∧ second = more ++ c :: after := by
  rcases List.append_eq_append_iff.1 h with ⟨more, hbefore, hsecond⟩ | ⟨more, hfirst, hmore⟩
  · exact .inr ⟨more, hbefore, hsecond⟩
  · cases more with
    | nil => exact .inr ⟨[], by simpa using hfirst.symm, hmore.symm⟩
    | cons d more =>
      obtain ⟨rfl, -⟩ := List.cons.inj hmore
      exact .inl ⟨more, hfirst⟩

/-- A character that no token covers is a blank. -/
theorem isBlank_of_not_covered (lexer : Lexer) {before later : List Char} {c : Char}
    (hrest : lexer.rest = before ++ c :: later)
    (houtside : ∀ token ∈ lexer.tokens, ¬ (token.start ≤ lexer.position + Text.width before ∧
      lexer.position + Text.width before < token.stop)) : Text.isBlank c = true := by
  have hblanks : ∀ d ∈ lexer.rest.takeWhile Text.isBlank, Text.isBlank d = true :=
    List.all_eq_true.1 List.all_takeWhile
  cases h : Text.skipBlanks lexer.rest with
  | nil =>
    have hall : lexer.rest.takeWhile Text.isBlank = lexer.rest := by
      have happend := List.takeWhile_append_dropWhile (p := Text.isBlank) (l := lexer.rest)
      rwa [← Text.skipBlanks, h, List.append_nil] at happend
    rw [hall, hrest] at hblanks
    exact hblanks c (by simp)
  | cons d s =>
    rw [tokens_of_cons h, List.forall_mem_cons] at houtside
    rw [rest_eq h] at hrest
    rcases split_append hrest with ⟨more, hmore⟩ | ⟨inner, rfl, hinner⟩
    · exact hblanks c (by rw [hmore]; simp)
    · rcases split_append hinner with ⟨covered, hcovered⟩ | ⟨more, rfl, hmore⟩
      · -- The character is one of the token's.
        refine absurd ⟨?_, ?_⟩ houtside.1
        · rw [Text.width_append, ← Nat.add_assoc]
          exact Nat.le_add_right _ _
        · have hsize := c.utf8Size_pos
          simp only [token]
          rw [hcovered]
          simp only [Text.width_append, Text.width_cons]
          omega
      · refine isBlank_of_not_covered (lexer.after d s) hmore fun token htoken => ?_
        have hposition : (lexer.after d s).position + Text.width more =
            lexer.position + Text.width (lexer.rest.takeWhile Text.isBlank ++
              (d :: s.take (Scan.lexeme lexer.context d s).2 ++ more)) := by
          simp only [after, Lexer.token, Text.width_append]
          omega
        rw [hposition]
        exact houtside.2 token htoken
termination_by lexer.rest.length
decreasing_by exact length_after_lt h

/-! ## Calls -/

/-- What the calls of the reader give, one after another, the first under zero. -/
def call (lexer : Lexer) : Nat → Option Token
  | 0 => lexer.next.1
  | k + 1 => lexer.next.2.call k

/-- Each call gives the next token, and once there are no more, no call gives any. -/
theorem call_eq (lexer : Lexer) (k : Nat) : lexer.call k = lexer.tokens[k]? := by
  induction k generalizing lexer with
  | zero =>
    cases h : Text.skipBlanks lexer.rest with
    | nil =>
      rw [tokens_of_nil h]
      simp only [call, next, h]
      rfl
    | cons c s =>
      rw [tokens_of_cons h]
      simp only [call, next, h]
      rfl
  | succ k ih =>
    rw [call, ih]
    cases h : Text.skipBlanks lexer.rest with
    | nil =>
      have hend : lexer.next.2.tokens = [] := tokens_of_nil (by simp only [next, h]; rfl)
      rw [hend, tokens_of_nil h]
      rfl
    | cons c s =>
      have hnext : lexer.next.2 = lexer.after c s := by
        simp only [next, h]
        rfl
      rw [hnext, tokens_of_cons h, List.getElem?_cons_succ]

end Lexer

/-! ## All tokens of an input -/

/-- A place between two characters, or at an end of the text. -/
def Text.IsBoundary (s : List Char) (position : Nat) : Prop :=
  ∃ before, before <+: s ∧ Text.width before = position

/-- The token covers a part of the input that does not begin with a blank. The part is what the
token says, between delimiters if that is verbatim text. -/
structure Token.Covers (input : String) (token : Token) : Prop where
  nonempty : token.start < token.stop
  inside : token.stop ≤ Text.width input.toList
  startBoundary : Text.IsBoundary input.toList token.start
  stopBoundary : Text.IsBoundary input.toList token.stop
  first : ∃ c ∈ (token.slice input).toList.head?, Text.isBlank c = false
  plain : token.lexeme.kind ≠ .text → token.slice input = token.lexeme.raw
  verbatim : token.lexeme.kind = .text → ∃ opening closing, Delimits opening closing ∧
    ((token.slice input).toList = opening :: (token.lexeme.raw.toList ++ [closing]) ∨
      (token.slice input).toList = opening :: token.lexeme.raw.toList ∧
        token.stop = Text.width input.toList)

/-- The tokens lie in the input one after another, with nothing but blanks around them. -/
structure Tiles (input : String) (tokens : List Token) : Prop where
  covers : ∀ token ∈ tokens, token.Covers input
  ordered : tokens.Pairwise fun token next => token.stop ≤ next.start
  outside : ∀ before c after, input.toList = before ++ c :: after →
    (∀ token ∈ tokens, ¬ (token.start ≤ Text.width before ∧ Text.width before < token.stop)) →
      Text.isBlank c = true

theorem Token.toList_slice {input : String} {token : Token} {before s rest : List Char}
    (hinput : input.toList = before ++ s ++ rest) (hstart : token.start = Text.width before)
    (hstop : token.stop = token.start + Text.width s) : (token.slice input).toList = s := by
  rw [Token.slice, String.toList_ofList, hinput, hstop, hstart]
  exact Text.slice_append before s rest

/-- A token covers the part of the input that its lexeme stands in. -/
theorem Token.covers_of_stands {input : String} {token : Token} {before rest : List Char} {c : Char}
    {s : List Char} (hinput : input.toList = before ++ (c :: s) ++ rest)
    (hstart : token.start = Text.width before)
    (hstop : token.stop = token.start + Text.width (c :: s)) (hc : Text.isBlank c = false)
    (hstands : token.lexeme.Stands (c :: s) rest) : token.Covers input := by
  have hslice := Token.toList_slice hinput hstart hstop
  have hsize := c.utf8Size_pos
  constructor
  · rw [hstop, Text.width_cons]
    omega
  · rw [hinput, hstop, hstart, Text.width_append, Text.width_append]
    exact Nat.le_add_right _ _
  · refine ⟨before, ?_, hstart.symm⟩
    rw [hinput, List.append_assoc]
    exact List.prefix_append _ _
  · refine ⟨before ++ (c :: s), ?_, ?_⟩
    · rw [hinput]
      exact List.prefix_append _ _
    · rw [hstop, hstart, Text.width_append]
  · exact ⟨c, by rw [hslice]; rfl, hc⟩
  · intro hkind
    exact String.toList_injective (hslice.trans (hstands.plain_eq hkind))
  · intro hkind
    obtain ⟨opening, closing, hdelimits, hwritten⟩ := hstands.verbatim_eq hkind
    refine ⟨opening, closing, hdelimits, ?_⟩
    rw [hslice]
    rcases hwritten with hclosed | ⟨hunclosed, rfl⟩
    · exact .inl hclosed
    · refine .inr ⟨hunclosed, ?_⟩
      rw [hinput, hstop, hstart, List.append_nil, Text.width_append]

/-- The tokens of an input tile it, and reading ends after the last of them. -/
theorem tokenize_tiles (input : String) :
    Tiles input (tokenize input) ∧
      ∀ k, (Lexer.ofInput input).call k = (tokenize input)[k]? := by
  have hstands : (Lexer.ofInput input).StandsIn input.toList := ⟨[], rfl, rfl⟩
  refine ⟨⟨?_, Lexer.tokens_pairwise _, ?_⟩, Lexer.call_eq _⟩
  · intro token htoken
    obtain ⟨earlier, later, htokens⟩ := List.append_of_mem htoken
    obtain ⟨reached, c, s, hreached, -, hskip, rfl⟩ := Lexer.exists_token hstands htokens
    obtain ⟨before, hinput, hstart⟩ := hreached.token hskip
    exact Token.covers_of_stands hinput hstart rfl (Text.not_isBlank_of_skipBlanks hskip)
      (Scan.lexeme_stands reached.context c s)
  · intro before c after hinput houtside
    refine Lexer.isBlank_of_not_covered (Lexer.ofInput input) hinput fun token htoken => ?_
    have hposition : (Lexer.ofInput input).position + Text.width before = Text.width before :=
      Nat.zero_add _
    rw [hposition]
    exact houtside token htoken

end FormulaMarkup
