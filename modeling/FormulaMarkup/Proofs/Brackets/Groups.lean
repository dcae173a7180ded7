import FormulaMarkup.Converter
import FormulaMarkup.Proofs.Brackets.Accounts
import FormulaMarkup.Proofs.Grammar.Reader

/-!
# The groups of a formula are its matched brackets
-/

namespace FormulaMarkup.Formula

def Shallow (ns : List Notice) : Prop := ∀ spelling, .nestingLimit spelling ∉ ns

theorem Shallow.append {ns ms : List Notice} : Shallow (ns ++ ms) ↔ Shallow ns ∧ Shallow ms := by
  simp only [Shallow, List.mem_append, not_or, forall_and]

/-! ## Before and after a group -/

theorem closes_of_bodyEnds {inBar : Bool} {x : Lexeme} {s : List Lexeme}
    (h : bodyEnds inBar true (x :: s) = true) :
    x.role? = some .closeBracket ∨ x.role? = some .leftRight ∧ inBar = true := by
  simp only [bodyEnds, Bool.true_and, closes] at h
  split at h
  · next role => exact .inl role
  · next role => exact .inr ⟨role, h⟩
  · cases h

theorem atOperandEnd_of_goes {inBar : Bool} {s : List Lexeme}
    (h : bodyEnds inBar true s = false) : atOperandEnd inBar s = false := by
  cases s with
  | nil => cases h
  | cons x s => exact h

/-- Outside brackets no bar follows what closes one. -/
theorem not_hasClosingBar_close {x : Lexeme} (role : x.role? = some .closeBracket)
    (s : List Lexeme) : hasClosingBar 0 (x :: s) = false := by
  simp [hasClosingBar, role]

theorem inBar_of_guarded {inBar guarded : Bool} {word : Word} {s : List Lexeme}
    (role : word.role = .leftRight)
    (hg : guarded = true → atOperandEnd inBar (.symbol word :: s) = false)
    (h : guarded = true) : inBar = false := by
  have hcloses := hg h
  have hrole : (Lexeme.symbol word).role? = some .leftRight := congrArg some role
  simpa [atOperandEnd, closes, hrole] using hcloses

theorem atOperandEnd_close {inBar : Bool} {word : Word} (role : word.role = .closeBracket)
    (s : List Lexeme) : atOperandEnd inBar (.symbol word :: s) = true := by
  have hrole : (Lexeme.symbol word).role? = some .closeBracket := congrArg some role
  simp [atOperandEnd, closes, hrole]

/-- What closes bars is there. -/
theorem ReadsClosing.closed_of_hasClosingBar {room : Nat} {s l left : List Lexeme}
    {body : List Term} {closing : Option (WordOf .leftRight)}
    (content : ReadsBody room true true s body l) (close : ReadsClosing .leftRight l closing left)
    (hbar : hasClosingBar 0 l = true) :
    ∃ word : WordOf .leftRight, closing = some word ∧ l = .symbol word.1 :: left := by
  cases close with
  | closed word => exact ⟨word, rfl, rfl⟩
  | unclosed next =>
    have ends := content.left_ends
    cases l with
    | nil => cases hbar
    | cons x rest =>
      rcases closes_of_bodyEnds ends with role | ⟨role, -⟩
      · rw [not_hasClosingBar_close role] at hbar
        cases hbar
      · exact absurd role (next x rfl)

/-- A group without a closing bracket goes on to the end of the input. -/
theorem ReadsClosing.nil_of_unclosed {room : Nat} {s left : List Lexeme} {body : List Term}
    (content : ReadsBody room false true s body left)
    (next : ∀ y ∈ left.head?, y.role? ≠ some .closeBracket) : left = [] := by
  have ends := content.left_ends
  cases left with
  | nil => rfl
  | cons x rest =>
    rcases closes_of_bodyEnds ends with role | ⟨-, h⟩
    · exact absurd role (next x rfl)
    · cases h

/-! ## Parts of formulas -/

mutual

theorem ReadsOperand.accounts {room inBar s operand left} :
    ReadsOperand room inBar s operand left → Shallow operand.notices →
      (guarded : Bool) → (guarded = true → atOperandEnd inBar s = false) → (i : Nat) →
      Accounts inBar guarded i s (operand.brackets i) (i + operand.yield.length) left
  | .number n, _, _, _, _ => (Accounts.refl _ _ _ _).cons (inert_of_symbol? rfl)
  | .text body, _, _, _, _ => (Accounts.refl _ _ _ _).cons (inert_of_symbol? rfl)
  | .character c, _, _, _, _ => (Accounts.refl _ _ _ _).cons (inert_of_symbol? rfl)
  | .leaf word role, _, _, _, _ =>
    (Accounts.refl _ _ _ _).cons (inert_word Role.isLeaf role rfl rfl rfl)
  | .keyword word role, _, _, _, _ =>
    (Accounts.refl _ _ _ _).cons (inert_of_role role nofun nofun nofun)
  | .strayClosing word role, _, false, _, _ => .stray role
  | .strayClosing word role, _, true, hg, _ => by
    have hguard := hg rfl
    rw [atOperandEnd_close role] at hguard
    cases hguard
  | .beyondLimit word _, hn, _, _, _ => absurd List.mem_cons_self (hn word.spelling)
  | .group word role content close, hn, _, _, i => by
    have hcontent := content.accounts (Shallow.append.1 hn).1 true (fun _ => rfl) (i + 1)
    cases close with
    | closed word' =>
      exact (hcontent.closedGroup role word'.2).cast
        (by simp +arith [Operand.yield, Word.closingYield])
    | unclosed next =>
      have hleft := ReadsClosing.nil_of_unclosed content next
      subst hleft
      exact (hcontent.openGroup role).cast
        (by simp +arith [Operand.yield, Word.closingYield])
  | .loneBar word role _, _, _, hg, _ => .loneBar role (inBar_of_guarded role hg)
  | .bars word role paired content close, hn, _, hg, i => by
    have hcontent := content.accounts (Shallow.append.1 hn).1 true (fun _ => rfl) (i + 1)
    have hbar := hcontent.bars rfl 0 (.inl rfl) paired
    obtain ⟨word', rfl, rfl⟩ := ReadsClosing.closed_of_hasClosingBar content close hbar
    exact (hcontent.closedBars role word'.2 (inBar_of_guarded role hg)).cast
      (by simp +arith [Operand.yield, Word.closingYield])
  | .function word role first more second, hn, guarded, _, i => by
    obtain ⟨hscripts, hargument⟩ := Shallow.append.1 hn
    have hname : Inert (.symbol word) := inert_of_role role nofun nofun nofun
    exact (((first.accounts hscripts guarded (i + 1)).seq
      (second.accounts hargument guarded (fun _ => more) _)).cons hname).cast
      (by simp +arith [Operand.yield])
  | .functionAlone word role first _, hn, guarded, _, i => by
    have hname : Inert (.symbol word) := inert_of_role role nofun nofun nofun
    exact ((first.accounts (Shallow.append.1 hn).1 guarded (i + 1)).cons hname).cast
      (by simp +arith [Operand.yield])
  | .noArgument word role _, _, _, _, _ =>
    (Accounts.refl _ _ _ _).cons (inert_word Role.isCall role rfl rfl rfl)
  | .verbatim word role body, _, _, _, _ =>
    ((Accounts.refl _ _ _ _).cons (inert_of_symbol? rfl)).cons
      (inert_of_role role nofun nofun nofun)
  | .unary word kind role more _ first, hn, guarded, _, i => by
    have hname : Inert (.symbol word) := inert_of_role role nofun nofun nofun
    exact ((first.accounts hn guarded (fun _ => more) (i + 1)).cons hname).cast
      (by simp +arith [Operand.yield])
  | .noSecond word order role more first _, hn, guarded, _, i => by
    have hname : Inert (.symbol word) := inert_of_role role nofun nofun nofun
    have hfirst := first.accounts (Shallow.append.1 hn).1 guarded (fun _ => more) (i + 1)
    exact (hfirst.cons hname).cast (by simp +arith [Operand.yield])
  | .binary word order role more first more' second, hn, guarded, _, i => by
    obtain ⟨hfirst, hsecond⟩ := Shallow.append.1 hn
    have hname : Inert (.symbol word) := inert_of_role role nofun nofun nofun
    exact (((first.accounts hfirst guarded (fun _ => more) (i + 1)).seq
      (second.accounts hsecond guarded (fun _ => more') _)).cons hname).cast
      (by simp +arith [Operand.yield])

theorem ReadsScripts.accounts {room inBar slots s scripts left} :
    ReadsScripts room inBar slots s scripts left → Shallow scripts.notices →
      (guarded : Bool) → (i : Nat) →
      Accounts inBar guarded i s (scripts.brackets i) (i + scripts.yield.length) left
  | .complete _, _, _, _ => .refl _ _ _ _
  | .noOperand _ _, _, _, _ => .refl _ _ _ _
  | .limit _ _ _, _, _, _ => .refl _ _ _ _
  | .cons marker more _ first rest, hn, guarded, i => by
    obtain ⟨hfirst, hrest⟩ := Shallow.append.1 hn
    exact (((first.accounts hfirst guarded (fun _ => more) (i + 1)).seq
      (rest.accounts hrest guarded _)).cons (inert_marker marker)).cast
      (by simp +arith [Scripts.yield])

theorem ReadsTerm.accounts {room inBar s term left} :
    ReadsTerm room inBar s term left → Shallow term.notices →
      (guarded : Bool) → (guarded = true → atOperandEnd inBar s = false) → (i : Nat) →
      Accounts inBar guarded i s (term.brackets i) (i + term.yield.length) left
  | .scripted first second _, hn, guarded, hg, i => by
    obtain ⟨hfirst, hsecond⟩ := Shallow.append.1 hn
    exact ((first.accounts hfirst guarded hg i).seq (second.accounts hsecond guarded _)).cast
      (by simp +arith [Term.yield])
  | .noDenominator first second _, hn, guarded, hg, i => by
    obtain ⟨hfirst, hsecond⟩ := Shallow.append.1 hn
    exact ((first.accounts hfirst guarded hg i).seq
      (second.accounts (Shallow.append.1 hsecond).1 guarded _)).cast (by simp +arith [Term.yield])
  | .fraction first second more third fourth, hn, guarded, hg, i => by
    obtain ⟨hfirst, hn⟩ := Shallow.append.1 hn
    obtain ⟨hsecond, hn⟩ := Shallow.append.1 hn
    obtain ⟨hthird, hfourth⟩ := Shallow.append.1 hn
    exact ((first.accounts hfirst guarded hg i).seq ((second.accounts hsecond guarded _).seq
      (((third.accounts hthird guarded (fun _ => more) _).seq
        (fourth.accounts hfourth guarded _)).cons inert_slash))).cast
      (by simp +arith [Term.yield])

theorem ReadsBody.accounts {room inBar inGroup s terms left} :
    ReadsBody room inBar inGroup s terms left → Shallow (Term.noticesOfList terms) →
      (guarded : Bool) → (guarded = true → inGroup = true) → (i : Nat) →
      Accounts inBar guarded i s (Term.bracketsOfList terms i)
        (i + (Term.yieldOfList terms).length) left
  | .nil _, _, _, _, _ => .refl _ _ _ _
  | .cons goes first rest, hn, guarded, hg, i => by
    obtain ⟨hfirst, hrest⟩ := Shallow.append.1 hn
    have hguard : guarded = true → atOperandEnd inBar s = false := by
      intro h
      rw [hg h] at goes
      exact atOperandEnd_of_goes goes
    exact ((first.accounts hfirst guarded hguard i).seq (rest.accounts hrest guarded hg _)).cast
      (by simp +arith [Term.yieldOfList])

end

/-! ## Formulas -/

/-- The brackets of a formula are those that the stack matches. -/
theorem ReadsBody.brackets_eq {room : Nat} {s : List Lexeme} {formula : List Term}
    (h : ReadsBody room false false s formula []) (hn : Shallow (Term.noticesOfList formula)) :
    Term.bracketsOfList formula 0 = Brackets.ofLexemes 0 [] s := by
  have haccounts := h.accounts hn false nofun 0
  rw [haccounts.matched [] (.inr rfl)]
  simp [Brackets.before, Brackets.ofLexemes]

end FormulaMarkup.Formula

namespace FormulaMarkup

def Formula.brackets (formula : List Term) : Brackets := Term.bracketsOfList formula 0

/-- The brackets of lexemes, matched with a stack. -/
def Brackets.matched (s : List Lexeme) : Brackets := .ofLexemes 0 [] s

/-- Unless a level is too deep, the groups of a formula are what the stack matches, and the notices
tell of each bracket that has no partner. -/
theorem brackets_ofInput (input : String)
    (h : ∀ spelling, .nestingLimit spelling ∉ notices input) :
    Formula.brackets (Formula.ofInput input) = Brackets.matched (lexemes input) ∧
    (notices input).filterMap Notice.stray? =
      (Brackets.matched (lexemes input)).stray.map (·.2.spelling) ∧
    (notices input).filterMap Notice.unclosed? =
      (Brackets.matched (lexemes input)).unclosed.map (·.2.symbol.output) := by
  have hbrackets : Formula.brackets (Formula.ofInput input) = Brackets.matched (lexemes input) :=
    (Formula.parse_reads (lexemes input)).brackets_eq h
  have htells := Term.tellsList (Formula.ofInput input) 0
  rw [← hbrackets]
  exact ⟨rfl, htells.stray, htells.unclosed⟩

/-- Brackets of two alphabets around a letter, and three that have no partner. -/
theorem brackets_ofInput_unmatched :
    (∀ spelling, .nestingLimit spelling ∉ notices ") [x) |y] (") ∧
      (Brackets.matched (lexemes ") [x) |y] (")).stray.map (·.2.spelling) = [")", "]"] ∧
      (Brackets.matched (lexemes ") [x) |y] (")).unclosed.map (·.2.symbol.output) = ["("] := by
  have hnotices : notices ") [x) |y] (" =
      [.strayClosing ")", .strayClosing "]", .unclosed "("] := by decide +kernel
  have hshallow : ∀ spelling, .nestingLimit spelling ∉ notices ") [x) |y] (" := by
    simp [hnotices]
  obtain ⟨-, hstray, hunclosed⟩ := brackets_ofInput ") [x) |y] (" hshallow
  rw [hnotices] at hstray hunclosed
  exact ⟨hshallow, hstray.symm, hunclosed.symm⟩

end FormulaMarkup
