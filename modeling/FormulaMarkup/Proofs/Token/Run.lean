import FormulaMarkup.Proofs.Token.Scan
import FormulaMarkup.Token.Lexer

/-!
# Reading the lexemes of a text

What is read does not depend on where in the input it stands, and a blank after a text parts it from
what follows, unless verbatim text is still open.
-/

namespace FormulaMarkup

namespace Lexer

/-! ## One step -/

/-- The token that is read next, if `c :: s` is left after the blanks. -/
def token (lexer : Lexer) (c : Char) (s : List Char) : Token :=
  let start := lexer.position + Text.width (lexer.rest.takeWhile Text.isBlank)
  ⟨(Scan.lexeme lexer.context c s).1, start,
    start + Text.width (c :: s.take (Scan.lexeme lexer.context c s).2)⟩

def after (lexer : Lexer) (c : Char) (s : List Char) : Lexer :=
  ⟨.after (lexer.token c s).lexeme, (lexer.token c s).stop,
    s.drop (Scan.lexeme lexer.context c s).2⟩

variable {lexer : Lexer} {c : Char} {s : List Char}

theorem tokens_of_nil (h : Text.skipBlanks lexer.rest = []) : lexer.tokens = [] := by
  have hnext : lexer.next.1 = none := by simp only [next, h]
  rw [tokens]
  split
  · rfl
  · next heq =>
    rw [heq] at hnext
    cases hnext

theorem tokens_of_cons (h : Text.skipBlanks lexer.rest = c :: s) :
    lexer.tokens = lexer.token c s :: (lexer.after c s).tokens := by
  have hnext : lexer.next = (some (lexer.token c s), lexer.after c s) := by
    simp only [next, h]
    rfl
  rw [tokens]
  split
  · next heq =>
    rw [heq] at hnext
    cases hnext
  · next heq =>
    rw [heq] at hnext
    cases hnext
    rfl

/-- A token that goes on to the end of the input is the last. -/
theorem tokens_after_of_drop (h : s.drop (Scan.lexeme lexer.context c s).2 = []) :
    (lexer.after c s).tokens = [] := by
  have hskip : Text.skipBlanks (lexer.after c s).rest = [] := by
    rw [after, h]
    rfl
  exact tokens_of_nil hskip

theorem length_after_lt (h : Text.skipBlanks lexer.rest = c :: s) :
    (lexer.after c s).rest.length < lexer.rest.length := by
  have hle := Text.length_skipBlanks_le lexer.rest
  rw [h, List.length_cons] at hle
  simp only [after, List.length_drop]
  omega

end Lexer

/-! ## All lexemes of a text -/

namespace Scan

variable {context : Context} {c : Char} {s t : List Char}

/-- The lexemes of a text. -/
def lexemes (context : Context) (t : List Char) : List Lexeme :=
  match _h : Text.skipBlanks t with
  | [] => []
  | c :: s => (lexeme context c s).1 ::
      lexemes (.after (lexeme context c s).1) (s.drop (lexeme context c s).2)
termination_by t.length
decreasing_by
  have hle := Text.length_skipBlanks_le t
  rw [_h, List.length_cons] at hle
  rw [List.length_drop]
  omega

def contextAfter (context : Context) (xs : List Lexeme) : Context :=
  xs.foldl (fun _ x => .after x) context

theorem lexemes_of_nil (h : Text.skipBlanks t = []) : lexemes context t = [] := by
  rw [lexemes]
  split
  · rfl
  · next heq =>
    rw [h] at heq
    cases heq

theorem lexemes_of_cons (h : Text.skipBlanks t = c :: s) :
    lexemes context t = (lexeme context c s).1 ::
      lexemes (.after (lexeme context c s).1) (s.drop (lexeme context c s).2) := by
  rw [lexemes]
  split
  · next heq =>
    rw [h] at heq
    cases heq
  · next heq =>
    rw [h] at heq
    cases heq
    rfl

theorem lexemes_congr {t' : List Char} (h : Text.skipBlanks t = Text.skipBlanks t') :
    lexemes context t = lexemes context t' := by
  rw [lexemes.eq_def, h, ← lexemes.eq_def]

/-- What holds of every lexeme that may be read holds of all lexemes of a text. -/
theorem forall_mem_lexemes {P : Lexeme → Prop} (h : ∀ context c s, P (lexeme context c s).1)
    (context : Context) (t : List Char) : ∀ x ∈ lexemes context t, P x := by
  cases ht : Text.skipBlanks t with
  | nil =>
    rw [lexemes_of_nil ht]
    exact nofun
  | cons c s =>
    rw [lexemes_of_cons ht, List.forall_mem_cons]
    exact ⟨h context c s, forall_mem_lexemes h _ _⟩
termination_by t.length
decreasing_by
  have hle := Text.length_skipBlanks_le t
  rw [ht, List.length_cons] at hle
  rw [List.length_drop]
  omega

/-- Where no verbatim text is announced, the context matters only if a negative number is next. -/
theorem lexemes_of_context (h : context.textAnnounced = false)
    (hfirst : ∀ n, (lexemes .start t).head? = some (.number n) → n.negative = false) :
    lexemes context t = lexemes .start t := by
  cases ht : Text.skipBlanks t with
  | nil => rw [lexemes_of_nil ht, lexemes_of_nil ht]
  | cons c s =>
    rw [lexemes_of_cons ht] at hfirst
    have hlexeme : lexeme context c s = lexeme .start c s := by
      refine lexeme_of_context h rfl fun hquote => number?_of_none fun n hn => ?_
      exact hfirst n (congrArg some (lexeme_of_number? rfl hquote hn))
    rw [lexemes_of_cons ht, lexemes_of_cons ht, hlexeme]

end Scan

namespace Lexer

theorem map_lexeme_tokens (lexer : Lexer) :
    lexer.tokens.map (·.lexeme) = Scan.lexemes lexer.context lexer.rest := by
  cases h : Text.skipBlanks lexer.rest with
  | nil =>
    rw [tokens_of_nil h, Scan.lexemes_of_nil h]
    rfl
  | cons c s =>
    have hmore := map_lexeme_tokens (lexer.after c s)
    rw [tokens_of_cons h, Scan.lexemes_of_cons h, List.map_cons, hmore]
    rfl
termination_by lexer.rest.length
decreasing_by exact length_after_lt h

end Lexer

/-- The lexemes of an input do not depend on their places. -/
theorem lexemes_eq (input : String) : lexemes input = Scan.lexemes .start input.toList :=
  Lexer.map_lexeme_tokens (.ofInput input)

/-! ## Verbatim text that is closed -/

/-- The token is no verbatim text, or both delimiters belong to it. -/
def Token.IsTerminated (token : Token) : Prop :=
  ∀ body, token.lexeme = .text body → token.stop = token.start + (Text.width body.toList + 2)

namespace Lexer

theorem skipBlanks_append_of_nil {s t : List Char} (h : Text.skipBlanks s = []) :
    Text.skipBlanks (s ++ t) = Text.skipBlanks t := by
  rw [Text.skipBlanks] at h ⊢
  rw [List.dropWhile_append, h]
  rfl

theorem skipBlanks_append_of_cons {c : Char} {s r t : List Char} (h : Text.skipBlanks r = c :: s) :
    Text.skipBlanks (r ++ t) = c :: s ++ t := by
  rw [Text.skipBlanks] at h ⊢
  rw [List.dropWhile_append, h]
  rfl

/-- What follows a blank after closed lexemes is read as it is after these lexemes. -/
theorem lexemes_append {z : Char} (hz : Text.isBlank z = true) (t : List Char) (lexer : Lexer)
    (h : ∀ token ∈ lexer.tokens, token.IsTerminated) :
    Scan.lexemes lexer.context (lexer.rest ++ z :: t) =
      Scan.lexemes lexer.context lexer.rest ++
        Scan.lexemes
          (Scan.contextAfter lexer.context (Scan.lexemes lexer.context lexer.rest)) t := by
  cases hs : Text.skipBlanks lexer.rest with
  | nil =>
    have hskip : Text.skipBlanks (lexer.rest ++ z :: t) = Text.skipBlanks t := by
      rw [skipBlanks_append_of_nil hs, Text.skipBlanks, List.dropWhile_cons_of_pos hz]
      rfl
    rw [Scan.lexemes_of_nil hs, List.nil_append, Scan.lexemes_congr hskip]
    rfl
  | cons c s =>
    have hskip : Text.skipBlanks (lexer.rest ++ z :: t) = c :: (s ++ z :: t) :=
      skipBlanks_append_of_cons hs
    have hterminated : (lexer.token c s).IsTerminated :=
      h _ (by rw [tokens_of_cons hs]; exact List.mem_cons_self)
    have hlexeme : Scan.lexeme lexer.context c (s ++ z :: t) = Scan.lexeme lexer.context c s :=
      Scan.lexeme_append hz t fun body hbody => Nat.add_left_cancel (hterminated body hbody)
    have hmore := lexemes_append hz t (lexer.after c s) fun token htoken =>
      h token (by rw [tokens_of_cons hs]; exact List.mem_cons_of_mem _ htoken)
    rw [Scan.lexemes_of_cons hskip, Scan.lexemes_of_cons hs, hlexeme,
      List.drop_append_of_le_length (Scan.lexeme_le _ _ _), List.cons_append]
    exact congrArg (_ :: ·) hmore
termination_by lexer.rest.length
decreasing_by exact length_after_lt hs

/-- Only the last token of an input can lack a delimiter. -/
theorem isTerminated_of_getLast? (lexer : Lexer)
    (h : ∀ token ∈ lexer.tokens.getLast?, token.IsTerminated) :
    ∀ token ∈ lexer.tokens, token.IsTerminated := by
  cases hs : Text.skipBlanks lexer.rest with
  | nil =>
    rw [tokens_of_nil hs]
    exact nofun
  | cons c s =>
    rw [tokens_of_cons hs] at h ⊢
    rw [List.forall_mem_cons]
    constructor
    · intro body hbody
      by_cases hmore : s.drop (Scan.lexeme lexer.context c s).2 = []
      · rw [tokens_after_of_drop hmore] at h
        exact h _ rfl body hbody
      · exact congrArg (_ + ·) (Scan.width_text hbody hmore)
    · refine isTerminated_of_getLast? (lexer.after c s) fun token htoken => h token ?_
      rw [List.getLast?_cons, Option.mem_def.1 htoken]
      rfl
termination_by lexer.rest.length
decreasing_by exact length_after_lt hs

end Lexer

/-! ## Two texts -/

section

variable {a b : String}

/-- After a text whose tokens are closed, another one is read as it is on its own. -/
theorem lexemes_append_of_terminated (hterminated : ∀ token ∈ tokenize a, token.IsTerminated)
    (hcontext : (Scan.contextAfter .start (lexemes a)).textAnnounced = false)
    (hnext : ∀ n, (lexemes b).head? = some (.number n) → n.negative = false) :
    lexemes (a ++ " " ++ b) = lexemes a ++ lexemes b := by
  have happend := Lexer.lexemes_append (z := ' ') (by decide) b.toList (.ofInput a) hterminated
  have hseam : Scan.lexemes (Scan.contextAfter .start (lexemes a)) b.toList = lexemes b := by
    rw [lexemes_eq b] at hnext ⊢
    exact Scan.lexemes_of_context hcontext hnext
  have hinput : (a ++ " " ++ b).toList = a.toList ++ ' ' :: b.toList := by simp
  rw [lexemes_eq (a ++ " " ++ b), hinput, ← hseam, lexemes_eq a]
  exact happend

/-- The text leaves no verbatim text open, and it announces none at its end. -/
structure IsClosed (a : String) : Prop where
  terminated : ∀ token ∈ tokenize a, token.IsTerminated
  settled : (Scan.contextAfter .start (lexemes a)).textAnnounced = false

theorem IsClosed.lexemes_append (ha : IsClosed a)
    (hnext : ∀ n, (lexemes b).head? = some (.number n) → n.negative = false) :
    lexemes (a ++ " " ++ b) = lexemes a ++ lexemes b :=
  lexemes_append_of_terminated ha.terminated ha.settled hnext

/-- It is enough to know the last lexeme. -/
theorem isClosed_of_last {xs : List Lexeme} {x : Lexeme} (ha : lexemes a = xs ++ [x])
    (htext : ∀ body, x ≠ .text body) (hannounces : x.announcesText = false) : IsClosed a where
  terminated := by
    refine Lexer.isTerminated_of_getLast? _ fun token htoken body hbody => ?_
    have hlast : (lexemes a).getLast? = some token.lexeme := by
      rw [lexemes, List.getLast?_map, tokenize, Option.mem_def.1 htoken]
      rfl
    rw [ha, List.getLast?_append, List.getLast?_singleton] at hlast
    exact absurd ((Option.some.inj hlast).trans hbody) (htext body)
  settled := by
    rw [ha, Scan.contextAfter, List.foldl_append]
    exact hannounces

theorem lexemes_append_of_last {xs : List Lexeme} {x : Lexeme} (ha : lexemes a = xs ++ [x])
    (htext : ∀ body, x ≠ .text body) (hannounces : x.announcesText = false)
    (hnext : ∀ n, (lexemes b).head? = some (.number n) → n.negative = false) :
    lexemes (a ++ " " ++ b) = lexemes a ++ lexemes b :=
  (isClosed_of_last ha htext hannounces).lexemes_append hnext

end

end FormulaMarkup
