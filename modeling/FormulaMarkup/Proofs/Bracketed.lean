import FormulaMarkup.Proofs.Brackets.Bars
import FormulaMarkup.Proofs.Brackets.Enclosed
import FormulaMarkup.Proofs.Operands
import FormulaMarkup.Proofs.Token.Spacing

/-!
# Brackets around a formula

Between brackets a formula has the markup that it has on its own. As an operand it loses the
brackets, whichever they are.
-/

namespace FormulaMarkup

/-! ## Lexemes -/

/-- A formula is read between brackets as it is on its own, if no verbatim text is open at its
end. -/
theorem lexemes_bracketed (opening : WordOf .openBracket) (closing : WordOf .closeBracket)
    {a : String} (hlast : ∀ token ∈ (tokenize a).getLast?, token.IsTerminated) :
    lexemes (opening.1.spelling ++ " " ++ a ++ " " ++ closing.1.spelling) =
      .symbol opening.1 :: (lexemes a ++ [.symbol closing.1]) := by
  have hopening := lexemes_spelling opening.1
  have hterminated : ∀ token ∈ tokenize opening.1.spelling, token.IsTerminated := by
    intro token htoken body hbody
    have hmem : token.lexeme ∈ lexemes opening.1.spelling := List.mem_map_of_mem htoken
    rw [hopening, hbody] at hmem
    simp at hmem
  have hcontext : Scan.contextAfter .start [.symbol opening.1] = .start := by
    simp [Scan.contextAfter, Scan.Context.after, Scan.Context.start, Lexeme.isOperand,
      Lexeme.announcesText, opening.2]
  have hleft := Lexer.lexemes_append (z := ' ') (by decide)
    (a.toList ++ ' ' :: closing.1.spelling.toList) (.ofInput opening.1.spelling) hterminated
  have hright := Lexer.lexemes_append (z := ' ') (by decide) closing.1.spelling.toList
    (.ofInput a) (Lexer.isTerminated_of_getLast? _ hlast)
  have hclosing : Scan.lexemes (Scan.contextAfter .start (lexemes a)) closing.1.spelling.toList =
      [.symbol closing.1] :=
    Scan.lexemes_spelling closing.1 fun _ => Word.closing_opensNothing closing.2
  simp only [Lexer.ofInput, ← lexemes_eq, hopening, hcontext] at hleft hright
  rw [hclosing] at hright
  have hinput : (opening.1.spelling ++ " " ++ a ++ " " ++ closing.1.spelling).toList =
      opening.1.spelling.toList ++ ' ' :: (a.toList ++ ' ' :: closing.1.spelling.toList) := by
    simp
  rw [lexemes_eq, hinput, hleft, hright]
  rfl

/-! ## The extent of the content -/

namespace Brackets

theorem before_assoc (a b rest : Brackets) :
    (a.before b).before rest = a.before (b.before rest) := by
  simp [before]

/-- What stands after brackets that are all matched is matched on its own. -/
theorem ofLexemes_append {i : Nat} {pending : List (Nat × Word)} {s : List Lexeme}
    (h : (ofLexemes i pending s).Complete) (t : List Lexeme) :
    ofLexemes i pending (s ++ t) =
      (ofLexemes i pending s).before (ofLexemes (i + s.length) [] t) := by
  induction s generalizing i pending with
  | nil =>
    obtain rfl : pending = [] := h.unclosed
    simp [ofLexemes, before]
  | cons x s ih =>
    have hlength : i + (x :: s).length = i + 1 + s.length := by
      rw [List.length_cons, Nat.add_right_comm, Nat.add_assoc]
    have hplain (hx : IsPlain x) : ofLexemes i pending (x :: s ++ t) =
        (ofLexemes i pending (x :: s)).before (ofLexemes (i + 1 + s.length) [] t) := by
      rw [ofLexemes_plain hx] at h ⊢
      rw [List.cons_append, ofLexemes_plain hx, ih h]
    rw [hlength]
    rcases Formula.bracket_cases x with
      ⟨word, rfl, role⟩ | ⟨word, rfl, role⟩ | ⟨word, rfl, role⟩ | hx
    · rw [ofLexemes_open role] at h ⊢
      rw [List.cons_append, ofLexemes_open role, ih h]
    · cases pending with
      | nil =>
        rw [ofLexemes_stray role] at h
        cases h.stray
      | cons opening pending =>
        rw [ofLexemes_close role, complete_before rfl] at h
        rw [List.cons_append, ofLexemes_close role, ofLexemes_close role, ih h, before_assoc]
    · exact hplain (Formula.isPlain_bar role)
    · exact hplain hx.plain

end Brackets

namespace Formula

theorem shallow_of_withinLimits {ns : List Notice} (h : WithinLimits ns) : Shallow ns :=
  fun spelling hmem => Bool.noConfusion (h (.nestingLimit spelling) hmem)

/-- The content of a group is all that stands in front of the closing bracket, if the brackets in it
are matched. -/
theorem ReadsBody.content_of_balanced {room : Nat} {s l : List Lexeme} {terms : List Term}
    {closing : WordOf .closeBracket} (hs : Balanced s)
    (h : ReadsBody room false true (s ++ [.symbol closing.1]) terms l)
    (hn : Shallow (Term.noticesOfList terms)) :
    Term.yieldOfList terms = s ∧ l = [.symbol closing.1] := by
  have haccounts := h.accounts hn true (fun _ => rfl) 0
  have hmatched := haccounts.matched [] (.inr rfl)
  rw [Brackets.ofLexemes_append hs, Brackets.ofLexemes_stray closing.2, Nat.zero_add] at hmatched
  -- The closing bracket is the only one without a partner, so the content ends where it stands.
  have hstray := congrArg Brackets.stray hmatched
  have hnone : (Brackets.ofLexemes 0 [] s).stray = [] := hs.stray
  have ends := h.left_ends
  cases l with
  | nil => simp [Brackets.before, Brackets.ofLexemes, haccounts.noStray rfl] at hstray
  | cons x left =>
    obtain role | ⟨-, hbar⟩ := closes_of_bodyEnds ends
    · cases x with
      | symbol word =>
        have hword : word.role = .closeBracket := Option.some.inj role
        rw [haccounts.unclosed_eq_nil (List.cons_ne_nil _ _), List.append_nil,
          Brackets.ofLexemes_stray hword] at hstray
        simp only [Brackets.before, haccounts.noStray rfl, hnone, List.nil_append,
          List.cons_append, Nat.zero_add, List.cons.injEq, Prod.mk.injEq] at hstray
        exact List.append_inj h.yield_append hstray.1.1.symm
      | _ => cases role
    · cases hbar

/-- Between brackets stands a formula that is read as on its own. -/
theorem isGroup_bracketed {s : List Lexeme} (opening : WordOf .openBracket)
    (closing : WordOf .closeBracket) (hs : Balanced s)
    (hn : WithinLimits (Term.noticesOfList
      (parse (.symbol opening.1 :: (s ++ [.symbol closing.1]))))) :
    IsGroup (.symbol opening.1 :: (s ++ [.symbol closing.1])) opening (parse s) closing ∧
      WithinLimits (Term.noticesOfList (parse s)) := by
  have content : ReadsBody (maxDepth - 1) false true (s ++ [.symbol closing.1]) _ _ :=
    parseBody_reads (parseOperand_reads _) true _
  have hgroup : ReadsOperand maxDepth false _ (.group opening.1 opening.2 _ _) _ :=
    .group opening.1 opening.2 content (parseClosing_reads .closeBracket _)
  have hlimits := (WithinLimits.append.1 ((parse_reads _).withinLimits_first rfl hn hgroup)).1
  obtain ⟨hyield, hleft⟩ := content.content_of_balanced hs (shallow_of_withinLimits hlimits)
  rw [hleft] at content
  have hparse := content.parse_content hlimits
  rw [hyield] at hparse
  rw [hparse]
  exact ⟨.group opening.1 opening.2 content (.closed closing []), hlimits⟩

end Formula

/-! ## The markup -/

/-- The leaf of a bracket. Without output there is none. -/
def Word.bracketLeaves (word : Word) : List Node :=
  if word.symbol.output = "" then [] else [.leaf .mo word.symbol.output]

theorem Word.bracketNodes_eq {word : Word} (h : Symbol.elements word.role = [.mo]) :
    Fragment.bracketNodes word.symbol = word.bracketLeaves := by
  rw [Fragment.bracketNodes, element_eq_mo h]
  rfl

section

open Formula

variable {settings : Settings} {m : String} {opening : WordOf .openBracket} {content : List Term}
  {closing : WordOf .closeBracket}

theorem Symbol.lookup_sqrt : lookup "sqrt" = some (.squareRoot "sqrt") := by decide +kernel

def Word.root : Word := ⟨"sqrt", .squareRoot "sqrt", Symbol.lookup_sqrt⟩

theorem sqrt_append (m : String) : "sqrt " ++ m = "sqrt" ++ " " ++ m := rfl

theorem body_root (h : IsGroup (lexemes m) opening content closing)
    (hn : WithinLimits (notices ("sqrt " ++ m))) :
    body settings ("sqrt " ++ m) = [.container .msqrt [.singleOrRow (contentNodes content)]] := by
  have hroot : lexemes "sqrt" = [.symbol .root] := lexemes_spelling .root
  have hkind : UnaryKind.squareRoot ≠ .text := by decide
  rw [sqrt_append] at hn ⊢
  exact body_unary h hroot rfl hkind hn

theorem body_power (h : IsGroup (lexemes m) opening content closing) :
    body settings ("x ^ " ++ m) =
      [.container .msup [.leaf .mi "x", .singleOrRow (contentNodes content)]] := by
  have hleft : lexemes "x ^" = [.character 'x'] ++ [.symbol Marker.sup.word] := by decide +kernel
  have hinput : "x ^ " ++ m = "x ^" ++ " " ++ m := rfl
  rw [hinput]
  exact body_script h .sup hleft

/-- Brackets around a formula with matched brackets show around its markup, and as an operand the
formula stands there without them. No comma stands outside the brackets of the formula, since with
commas between groups it could be a table. -/
theorem body_bracketed (settings : Settings) (opening : WordOf .openBracket)
    (closing : WordOf .closeBracket) {a : String} (hbalanced : Balanced (lexemes a))
    (hlast : ∀ token ∈ (tokenize a).getLast?, token.IsTerminated)
    (hcomma : ∀ k, (lexemes a)[k]? = some (.symbol .comma) →
      (Brackets.matched (lexemes a)).Encloses k) :
    let m := opening.1.spelling ++ " " ++ a ++ " " ++ closing.1.spelling
    WithinLimits (notices m) →
      body settings m =
        [.row (opening.1.bracketLeaves ++ body settings a ++ closing.1.bracketLeaves)] ∧
      (WithinLimits (notices ("sqrt " ++ m)) →
        body settings ("sqrt " ++ m) = [.container .msqrt [.singleOrRow (body settings a)]]) ∧
      body settings ("x ^ " ++ m) =
        [.container .msup [.leaf .mi "x", .singleOrRow (body settings a)]] ∧
      body settings (m ++ " / y") =
        [.container .mfrac [.singleOrRow (body settings a), .leaf .mi "y"]] := by
  intro m hn
  have hlexemes : lexemes m = .symbol opening.1 :: (lexemes a ++ [.symbol closing.1]) :=
    lexemes_bracketed opening closing hlast
  rw [notices, ofInput, hlexemes] at hn
  obtain ⟨hgroup, hcontent⟩ := isGroup_bracketed opening closing hbalanced hn
  rw [← hlexemes] at hgroup
  have hnodes : contentNodes (parse (lexemes a)) = body settings a := by
    rw [contentNodes, resolve_fragments (shallow_of_withinLimits hcontent) hcomma, body_eq]
    rfl
  rw [← hnodes]
  refine ⟨?_, body_root hgroup, body_power hgroup, body_numerator hgroup⟩
  rw [body_self hgroup, Word.bracketNodes_eq (by rw [opening.2]; rfl),
    Word.bracketNodes_eq (by rw [closing.2]; rfl), List.append_assoc]

theorem Symbol.lookup_closing : lookup ")" = some (.closeBracket ")") := by decide +kernel

/-- A comma between brackets of two alphabets, a bar alone and a root without argument, all between
an invisible bracket and one that shows. -/
theorem body_bracketed_lone_bar :
    let a := "(u, v] | sqrt"
    let opening : WordOf .openBracket := ⟨⟨"\x7b:", .openBracket "", by decide +kernel⟩, rfl⟩
    let closing : WordOf .closeBracket := ⟨⟨")", .closeBracket ")", Symbol.lookup_closing⟩, rfl⟩
    let m := opening.1.spelling ++ " " ++ a ++ " " ++ closing.1.spelling
    let nodes := [.row [.leaf .mo "(", .leaf .mi "u", .leaf .mo ",", .leaf .mi "v", .leaf .mo "]"],
      .row [.leaf .mo "|"], .leaf .mo "sqrt"]
    Balanced (lexemes a) ∧ (∀ token ∈ (tokenize a).getLast?, token.IsTerminated) ∧
      (∀ k, (lexemes a)[k]? = some (.symbol .comma) →
        (Brackets.matched (lexemes a)).Encloses k) ∧
      WithinLimits (notices m) ∧ WithinLimits (notices ("sqrt " ++ m)) ∧
      body .default m = [.row (nodes ++ [.leaf .mo ")"])] ∧
      body .default ("sqrt " ++ m) = [.container .msqrt [.row nodes]] := by
  intro a opening closing m nodes
  have htokens : tokenize a = [⟨.symbol ⟨"(", .openBracket "(", by decide +kernel⟩, 0, 1⟩,
      ⟨.character 'u', 1, 2⟩, ⟨.symbol .comma, 2, 3⟩, ⟨.character 'v', 4, 5⟩,
      ⟨.symbol ⟨"]", .closeBracket "]", by decide +kernel⟩, 5, 6⟩,
      ⟨.symbol ⟨"|", .bar "|", by decide +kernel⟩, 7, 8⟩,
      ⟨.symbol .root, 9, 13⟩] := by decide +kernel
  have hbalanced : Balanced (lexemes a) := by
    rw [lexemes, htokens]
    exact ⟨rfl, rfl⟩
  have hlast : ∀ token ∈ (tokenize a).getLast?, token.IsTerminated := by
    rw [htokens]
    rintro token ⟨⟩ body ⟨⟩
  have hcomma : ∀ k, (lexemes a)[k]? = some (.symbol .comma) →
      (Brackets.matched (lexemes a)).Encloses k := by
    have hplaces : ∀ k < (lexemes a).length, (lexemes a)[k]? = some (.symbol .comma) →
        (Brackets.matched (lexemes a)).Encloses k := by
      rw [lexemes, htokens]
      unfold Brackets.Encloses
      decide +kernel
    exact fun k hk => hplaces k (List.getElem?_eq_some_iff.1 hk).1 hk
  have hlexemes : lexemes m = .symbol opening.1 :: (lexemes a ++ [.symbol closing.1]) :=
    lexemes_bracketed opening closing hlast
  have hn : WithinLimits (notices m) := by
    rw [notices, ofInput, hlexemes, lexemes, htokens]
    unfold WithinLimits
    decide +kernel
  have hroot : WithinLimits (notices ("sqrt " ++ m)) := by
    have hword : lexemes ("sqrt" ++ " " ++ m) = .symbol .root :: lexemes m :=
      lexemes_after_word (lexemes_spelling .root) (by decide) (by simp [hlexemes])
    rw [notices, ofInput, sqrt_append, hword, hlexemes, lexemes, htokens]
    unfold WithinLimits
    decide +kernel
  have hnodes : body .default a = nodes := by
    rw [body_eq, ofInput, lexemes, htokens]
    decide +kernel
  obtain ⟨hbody, hunary, -⟩ := body_bracketed .default opening closing hbalanced hlast hcomma hn
  rw [hnodes] at hbody hunary
  exact ⟨hbalanced, hlast, hcomma, hn, hroot, hbody, hunary hroot⟩

end

end FormulaMarkup
