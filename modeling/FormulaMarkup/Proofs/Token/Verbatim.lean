import FormulaMarkup.Proofs.Standalone
import Mathlib.Data.List.Infix

/-!
# Verbatim text in brackets

After a word that announces it, the text goes on to the bracket that closes it. Brackets of the same
kind are counted, and nothing else that stands in between is looked at.
-/

namespace FormulaMarkup

/-! ## The bracket that closes a text -/

namespace Scan

variable {o c : Char} {depth : Nat} {s : List Char}

/-- No bracket in the text closes one before it, except for `depth` of them. -/
def ClosesWithin (o c : Char) (depth : Nat) (s : List Char) : Prop :=
  ∀ p, p <+: s → p.count c ≤ p.count o + depth

instance : Decidable (ClosesWithin o c depth s) :=
  decidable_of_iff (∀ p ∈ s.inits, p.count c ≤ p.count o + depth)
    (by simp only [List.mem_inits, ClosesWithin])

theorem ClosesWithin.of_opening (h : ClosesWithin o c depth (o :: s)) (hne : o ≠ c) :
    ClosesWithin o c (depth + 1) s := by
  intro p hp
  have hcount := h (o :: p) (List.cons_prefix_cons.2 ⟨rfl, hp⟩)
  rw [List.count_cons_of_ne hne, List.count_cons_self] at hcount
  omega

/-- A bracket that closes has one to close. -/
theorem ClosesWithin.of_closing (h : ClosesWithin o c depth (c :: s)) (hne : o ≠ c) :
    ∃ outer, depth = outer + 1 ∧ ClosesWithin o c outer s := by
  have hcount (p : List Char) (hp : p <+: s) : p.count c + 1 ≤ p.count o + depth := by
    have hcount := h (c :: p) (List.cons_prefix_cons.2 ⟨rfl, hp⟩)
    rwa [List.count_cons_self, List.count_cons_of_ne hne.symm] at hcount
  obtain ⟨outer, rfl⟩ : ∃ outer, depth = outer + 1 :=
    Nat.exists_eq_add_one.2 (by simpa [Nat.succ_le_iff] using hcount [] List.nil_prefix)
  exact ⟨outer, rfl, fun p hp => Nat.le_of_succ_le_succ (hcount p hp)⟩

theorem ClosesWithin.of_other {x : Char} (h : ClosesWithin o c depth (x :: s)) (ho : x ≠ o)
    (hc : x ≠ c) : ClosesWithin o c depth s := by
  intro p hp
  have hcount := h (x :: p) (List.cons_prefix_cons.2 ⟨rfl, hp⟩)
  rwa [List.count_cons_of_ne ho, List.count_cons_of_ne hc] at hcount

theorem untilClosing_opening (o c : Char) (depth : Nat) (s : List Char) :
    untilClosing o c depth (o :: s) =
      (o :: (untilClosing o c (depth + 1) s).1, (untilClosing o c (depth + 1) s).2) := by
  simp [untilClosing]

theorem untilClosing_closing (hne : o ≠ c) (depth : Nat) (s : List Char) :
    untilClosing o c (depth + 1) (c :: s) =
      (c :: (untilClosing o c depth s).1, (untilClosing o c depth s).2) := by
  simp [untilClosing, hne.symm]

theorem untilClosing_other {x : Char} (ho : x ≠ o) (hc : x ≠ c) (depth : Nat) (s : List Char) :
    untilClosing o c depth (x :: s) =
      (x :: (untilClosing o c depth s).1, (untilClosing o c depth s).2) := by
  simp [untilClosing, ho, hc]

/-- A text that closes no bracket from before is passed, and what it leaves open is counted. -/
theorem untilClosing_pass (hne : o ≠ c) (h : ClosesWithin o c depth s) (t : List Char) :
    untilClosing o c depth (s ++ t) =
      (s ++ (untilClosing o c (depth + s.count o - s.count c) t).1,
        (untilClosing o c (depth + s.count o - s.count c) t).2) := by
  induction s generalizing depth with
  | nil => rfl
  | cons x s ih =>
    by_cases ho : x = o
    · subst ho
      have hdepth : depth + 1 + s.count x - s.count c =
          depth + (x :: s).count x - (x :: s).count c := by
        rw [List.count_cons_self, List.count_cons_of_ne hne, Nat.add_right_comm, Nat.add_assoc]
      rw [List.cons_append, untilClosing_opening, ih (h.of_opening hne), hdepth]
      rfl
    · by_cases hc : x = c
      · subst hc
        obtain ⟨outer, rfl, houter⟩ := h.of_closing hne
        have hdepth : outer + s.count o - s.count x =
            outer + 1 + (x :: s).count o - (x :: s).count x := by
          rw [List.count_cons_self, List.count_cons_of_ne ho]
          omega
        rw [List.cons_append, untilClosing_closing hne, ih houter, hdepth]
        rfl
      · rw [List.cons_append, untilClosing_other ho hc, ih (h.of_other ho hc),
          List.count_cons_of_ne ho, List.count_cons_of_ne hc]
        rfl

theorem untilClosing_closed (hne : o ≠ c) (h : ClosesWithin o c 0 s)
    (hcount : s.count o = s.count c) (t : List Char) :
    untilClosing o c 0 (s ++ c :: t) = (s, true) := by
  rw [untilClosing_pass hne h, hcount, Nat.zero_add, Nat.sub_self]
  simp [untilClosing, hne.symm]

theorem untilClosing_open (hne : o ≠ c) (h : ClosesWithin o c 0 s) :
    untilClosing o c 0 s = (s, false) := by
  have hpass := untilClosing_pass hne h []
  rw [List.append_nil] at hpass
  rw [hpass]
  simp [untilClosing]

theorem ne_of_closing? (h : closing? o = some c) : o ≠ c := by
  unfold closing? at h
  split at h <;> cases h <;> decide

theorem not_isBlank_of_closing? (h : closing? o = some c) : Text.isBlank o = false := by
  unfold closing? at h
  split at h
  · decide
  · decide
  · decide
  · cases h

/-! ## The text where it is announced -/

variable {context : Context}

theorem lexeme_closed (htext : context.textAnnounced = true) (hpair : closing? o = some c)
    (h : ClosesWithin o c 0 s) (hcount : s.count o = s.count c) (t : List Char) :
    lexeme context o (s ++ c :: t) = (.text (String.ofList s), s.length + 1) := by
  rw [lexeme, htext, if_pos rfl, hpair]
  simp only [untilClosing_closed (ne_of_closing? hpair) h hcount, ofText, Bool.toNat_true]

theorem lexeme_open (htext : context.textAnnounced = true) (hpair : closing? o = some c)
    (h : ClosesWithin o c 0 s) :
    lexeme context o s = (.text (String.ofList s), s.length) := by
  rw [lexeme, htext, if_pos rfl, hpair]
  simp only [untilClosing_open (ne_of_closing? hpair) h, ofText, Bool.toNat_false, Nat.add_zero]

end Scan

/-! ## The word that announces it -/

namespace Word

/-- A word is read whole in front of a character that no word goes on with. -/
theorem longest?_spelling_append {z : Char}
    (hz : ∀ other : Word, z ∉ other.spelling.toList.tail) (word : Word) (t : List Char) :
    longest? (word.spelling.toList ++ z :: t) = some word := by
  have hpart := List.prefix_append word.spelling.toList (z :: t)
  rw [← longest?_of_part hpart, longest?_spelling]
  intro found hfound
  have hbeginning := longestUpTo_isBeginning hfound
  rcases List.prefix_or_prefix_of_prefix hbeginning hpart with hle | ⟨r, hr⟩
  · exact hle
  · cases r with
    | nil =>
      rw [← hr, List.append_nil]
    | cons x r =>
      rw [← hr, List.prefix_append_right_inj, List.cons_prefix_cons] at hbeginning
      have hmem : z ∈ found.spelling.toList.tail := by
        rw [← hr, List.tail_append_of_ne_nil word.isSpelling.ne_nil, hbeginning.1]
        simp
      exact absurd hmem (hz found)

theorem not_mem_tail_of_isBlank {z : Char} (hz : Text.isBlank z = true) (word : Word) :
    z ∉ word.spelling.toList.tail := by
  intro hmem
  rw [word.not_isBlank (List.mem_of_mem_tail hmem)] at hz
  cases hz

theorem not_mem_tail_of_closing? {o c : Char} (h : Scan.closing? o = some c) (word : Word) :
    o ∉ word.spelling.toList.tail := by
  intro hmem
  have hopening := word.not_mem_opening hmem
  unfold Scan.closing? at h
  split at h
  · exact hopening (by decide)
  · exact hopening (by decide)
  · exact hopening (by decide)
  · cases h

end Word

/-- A word that announces verbatim text is the first lexeme of an input that begins with it. -/
theorem Scan.lexeme_announcing {word : Word}
    (hword : word.spelling = "text" ∨ word.spelling = "mbox") {z : Char}
    (hz : ∀ other : Word, z ∉ other.spelling.toList.tail) (t : List Char) :
    ∃ c s, word.spelling.toList = c :: s ∧ Text.isBlank c = false ∧
      lexeme .start c (s ++ z :: t) = (.symbol word, s.length) := by
  have hlongest := Word.longest?_spelling_append hz word t
  have hlength := String.length_toList (s := word.spelling)
  have hfirst : ∃ c s, word.spelling.toList = c :: s ∧ (c = 't' ∨ c = 'm') := by
    rcases hword with h | h
    · exact ⟨'t', "ext".toList, by rw [h]; decide, .inl rfl⟩
    · exact ⟨'m', "box".toList, by rw [h]; decide, .inr rfl⟩
  obtain ⟨c, s, hs, hc⟩ := hfirst
  have hnumber : number? false (c :: (s ++ z :: t)) = none := by
    rcases hc with rfl | rfl <;> rfl
  have hquote : c ≠ '\x22' := by
    rcases hc with rfl | rfl <;> decide
  refine ⟨c, s, hs, word.not_isBlank (hs ▸ List.mem_cons_self), ?_⟩
  rw [hs, List.cons_append] at hlongest
  rw [hs] at hlength
  simp [lexeme, Context.start, hquote, hnumber, hlongest, ← hlength]

namespace Lexer

variable {ws s : List Char} {c : Char} {x : Lexeme} {n : Nat}

/-- What is read after blanks. -/
theorem tokens_of_lexeme (lexer : Lexer) (hws : ∀ z ∈ ws, Text.isBlank z = true)
    (hc : Text.isBlank c = false) (hrest : lexer.rest = ws ++ c :: s)
    (hlexeme : Scan.lexeme lexer.context c s = (x, n)) :
    lexer.tokens =
      ⟨x, lexer.position + Text.width ws, lexer.position + Text.width (ws ++ c :: s.take n)⟩ ::
      tokens ⟨.after x, lexer.position + Text.width (ws ++ c :: s.take n), s.drop n⟩ := by
  have hskip : Text.skipBlanks lexer.rest = c :: s := by
    rw [hrest, Text.skipBlanks, List.dropWhile_append_of_pos hws,
      List.dropWhile_cons_of_neg (by simp [hc])]
  have hblanks : lexer.rest.takeWhile Text.isBlank = ws := by
    rw [hrest, List.takeWhile_append_of_pos hws, List.takeWhile_cons_of_neg (by simp [hc]),
      List.append_nil]
  rw [tokens_of_cons hskip, after, token, hlexeme, hblanks, Text.width_append, Nat.add_assoc]

end Lexer

namespace Formula

theorem parse_verbatim {word : Word} (role : word.role = .unary .text) (body : String) :
    parse [.symbol word, .text body] = [.scripted (.verbatim word role body) (.done .complete)] :=
  parse_eq_iff.2 (.cons rfl (.scripted (.verbatim word role body) (.complete nofun) nofun)
    (.nil rfl))

end Formula

/-! ## Inputs with verbatim text -/

open Formula

section

variable {word : Word} {ws : String} {o c : Char} {s : String}

/-- A word that announces verbatim text, blanks, and the text in brackets, of which the last is
missing. -/
def verbatimInput (word : Word) (ws : String) (o : Char) (s : String) : String :=
  word.spelling ++ ws ++ o.toString ++ s

theorem toList_verbatimInput :
    (verbatimInput word ws o s).toList =
      word.spelling.toList ++ (ws.toList ++ o :: s.toList) := by
  simp [verbatimInput]

theorem tokenize_announced (hword : word.spelling = "text" ∨ word.spelling = "mbox")
    (hws : Text.AreBlanks ws) (hpair : Scan.closing? o = some c) {input : String} {t : List Char}
    (hinput : input.toList = word.spelling.toList ++ (ws.toList ++ o :: t)) {x : Lexeme} {n : Nat}
    (hlexeme : ∀ context : Scan.Context, context.textAnnounced = true →
      Scan.lexeme context o t = (x, n)) :
    tokenize input =
      ⟨.symbol word, 0, Text.width word.spelling.toList⟩ ::
      ⟨x, Text.width (word.spelling ++ ws).toList,
        Text.width (word.spelling.toList ++ (ws.toList ++ o :: t.take n))⟩ ::
      Lexer.tokens ⟨.after x, Text.width (word.spelling.toList ++ (ws.toList ++ o :: t.take n)),
        t.drop n⟩ := by
  obtain ⟨z, more, hz, hmore⟩ : ∃ z more, (∀ other : Word, z ∉ other.spelling.toList.tail) ∧
      ws.toList ++ o :: t = z :: more := by
    cases hblanks : ws.toList with
    | nil => exact ⟨o, t, Word.not_mem_tail_of_closing? hpair, rfl⟩
    | cons z blanks =>
      have hz : Text.isBlank z = true := hws z (hblanks ▸ List.mem_cons_self)
      exact ⟨z, blanks ++ o :: t, Word.not_mem_tail_of_isBlank hz, rfl⟩
  obtain ⟨first, rest, hspelling, hfirst, hannouncing⟩ := Scan.lexeme_announcing hword hz more
  have hannounces : (Lexeme.symbol word).announcesText = true :=
    decide_eq_true (word.role_eq_text_iff.2 hword)
  have hstart : (Lexer.ofInput input).rest = [] ++ first :: (rest ++ z :: more) := by
    rw [Lexer.ofInput, hinput, hmore, hspelling]
    rfl
  have hone := Lexer.tokens_of_lexeme _ (List.forall_mem_nil _) hfirst hstart hannouncing
  have hposition : (Lexer.ofInput input).position = 0 := rfl
  rw [List.take_left, List.drop_left, List.nil_append, ← hspelling, ← hmore, hposition,
    Text.width_nil, Nat.zero_add, Nat.zero_add] at hone
  have htwo := Lexer.tokens_of_lexeme ⟨.after (.symbol word), Text.width word.spelling.toList,
    ws.toList ++ o :: t⟩ hws (Scan.not_isBlank_of_closing? hpair) rfl (hlexeme _ hannounces)
  rw [tokenize, hone, htwo]
  simp only [String.toList_append, Text.width_append]

/-- Verbatim text in brackets is taken as it is, whatever stands in it, up to the bracket that
closes it. What follows is read as after an operand, and if nothing does, the markup is the text in
a row. Without that bracket the text goes on to the end. -/
theorem tokenize_verbatimInput (hword : word.spelling = "text" ∨ word.spelling = "mbox")
    (hws : Text.AreBlanks ws) (hpair : (o, c) ∈ [('(', ')'), ('[', ']'), ('\x7b', '\x7d')])
    (hcloses : ∀ p, p <+: s.toList → p.count c ≤ p.count o) :
    let opened := verbatimInput word ws o s
    let closed := opened ++ c.toString
    let announced : Token := ⟨.symbol word, 0, Text.width word.spelling.toList⟩
    let start := Text.width (word.spelling ++ ws).toList
    (s.toList.count o = s.toList.count c →
      (∀ r : String, tokenize (closed ++ r) =
        announced :: ⟨.text s, start, Text.width closed.toList⟩ ::
          Lexer.tokens ⟨⟨true, false⟩, Text.width closed.toList, r.toList⟩) ∧
      ∀ settings, body settings closed = [.row [.leaf .mtext s]]) ∧
    tokenize opened = [announced, ⟨.text s, start, Text.width opened.toList⟩] := by
  intro opened closed announced start
  have hclosing : Scan.closing? o = some c := by
    simp only [List.mem_cons, Prod.mk.injEq, List.not_mem_nil, or_false] at hpair
    rcases hpair with ⟨rfl, rfl⟩ | ⟨rfl, rfl⟩ | ⟨rfl, rfl⟩ <;> rfl
  have hopened : opened.toList = word.spelling.toList ++ (ws.toList ++ o :: s.toList) :=
    toList_verbatimInput
  have hclosed : closed.toList =
      word.spelling.toList ++ (ws.toList ++ o :: (s.toList ++ [c])) := by
    simp [closed, hopened]
  have hwithin : Scan.ClosesWithin o c 0 s.toList := hcloses
  refine ⟨fun hcount => ?_, ?_⟩
  · have htokens (r : String) : tokenize (closed ++ r) =
        announced :: ⟨.text s, start, Text.width closed.toList⟩ ::
          Lexer.tokens ⟨⟨true, false⟩, Text.width closed.toList, r.toList⟩ := by
      have hinput : (closed ++ r).toList =
          word.spelling.toList ++ (ws.toList ++ o :: (s.toList ++ c :: r.toList)) := by
        simp [closed, hopened]
      have htake : (s.toList ++ c :: r.toList).take (s.toList.length + 1) = s.toList ++ [c] := by
        rw [List.append_cons, List.take_left' (by simp)]
      have hdrop : (s.toList ++ c :: r.toList).drop (s.toList.length + 1) = r.toList := by
        rw [List.append_cons, List.drop_left' (by simp)]
      have htokens := tokenize_announced hword hws hclosing hinput fun context htext =>
        Scan.lexeme_closed htext hclosing hwithin hcount r.toList
      rwa [htake, hdrop, String.ofList_toList, ← hclosed] at htokens
    refine ⟨htokens, fun settings => ?_⟩
    have hlexemes : lexemes closed = [.symbol word, .text s] := by
      have hlast := htokens ""
      rw [String.append_empty] at hlast
      rw [lexemes, hlast, Lexer.tokens_of_nil rfl]
      rfl
    rw [body_eq, ofInput, hlexemes, parse_verbatim (word.role_eq_text_iff.2 hword)]
    rfl
  · have htokens := tokenize_announced hword hws hclosing hopened fun context htext =>
      Scan.lexeme_open htext hclosing hwithin
    rwa [List.take_length, List.drop_length, String.ofList_toList, ← hopened,
      Lexer.tokens_of_nil rfl] at htokens

end

/-- Brackets of the same kind and of another one, a quote, and a letter of two code units. The minus
sign after the text is an operator. -/
theorem tokenize_verbatimInput_mbox :
    let word : Word := ⟨"mbox", .text "mbox", by decide +kernel⟩
    let s := "[ü] \x22 (sin"
    (word.spelling = "text" ∨ word.spelling = "mbox") ∧ Text.AreBlanks "\t " ∧
      ('[', ']') ∈ [('(', ')'), ('[', ']'), ('\x7b', '\x7d')] ∧
      (∀ p, p <+: s.toList → p.count ']' ≤ p.count '[') ∧
      s.toList.count '[' = s.toList.count ']' ∧
      (tokenize "mbox\t [[ü] \x22 (sin]-2").map
          (fun token => (token.lexeme.kind, token.lexeme.raw, token.start, token.stop)) =
        [(.word, "mbox", 0, 4), (.text, s, 6, 19), (.punctuation, "-", 19, 20),
          (.number, "2", 20, 21)] ∧
      body .default "mbox\t [[ü] \x22 (sin]" = [.row [.leaf .mtext s]] ∧
      tokenize "mbox\t [[ü] \x22 (sin" = [⟨.symbol word, 0, 4⟩, ⟨.text s, 6, 18⟩] := by
  intro word s
  have hword : word.spelling = "text" ∨ word.spelling = "mbox" := .inr rfl
  have hws : Text.AreBlanks "\t " := by decide
  have hpair : ('[', ']') ∈ [('(', ')'), ('[', ']'), ('\x7b', '\x7d')] := by decide
  have hcloses : Scan.ClosesWithin '[' ']' 0 s.toList := by decide +kernel
  have hcount : s.toList.count '[' = s.toList.count ']' := by decide +kernel
  obtain ⟨hbalanced, hopen⟩ := tokenize_verbatimInput hword hws hpair hcloses
  obtain ⟨htokens, hbody⟩ := hbalanced hcount
  have hstop : Text.width (verbatimInput word "\t " '[' s ++ ']'.toString).toList = 19 := by
    decide +kernel
  have hmore : tokenize "mbox\t [[ü] \x22 (sin]-2" = ⟨.symbol word, 0, 4⟩ :: ⟨.text s, 6, 19⟩ ::
      Lexer.tokens ⟨⟨true, false⟩, 19, "-2".toList⟩ := by
    refine (htokens "-2").trans ?_
    rw [hstop]
    decide +kernel
  refine ⟨hword, hws, hpair, hcloses, hcount, ?_, hbody .default, hopen.trans ?_⟩
  · rw [hmore]
    decide +kernel
  · decide +kernel

end FormulaMarkup
