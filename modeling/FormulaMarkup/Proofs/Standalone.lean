import FormulaMarkup.Proofs.Bracketed
import FormulaMarkup.Proofs.Brackets.BarUses
import FormulaMarkup.Proofs.Token.Joined

/-!
# Texts that are one operand

A single lexeme that opens nothing, or a bracket with the one that closes it and all between them,
is read as one operand whatever follows, bars included.
-/

namespace FormulaMarkup

/-! ## Matched brackets hide what follows them -/

namespace Brackets

/-- What ends a text in which no bracket stays open leaves none open either. -/
theorem exists_unclosed_eq_nil {i : Nat} {pending : List (Nat × Word)} {s t : List Lexeme}
    (h : (ofLexemes i pending (s ++ t)).unclosed = []) :
    ∃ i pending, (ofLexemes i pending t).unclosed = [] := by
  induction s generalizing i pending with
  | nil => exact ⟨i, pending, h⟩
  | cons x s ih =>
    rw [List.cons_append] at h
    rcases Formula.bracket_cases x with
      ⟨word, rfl, role⟩ | ⟨word, rfl, role⟩ | ⟨word, rfl, role⟩ | hx
    · rw [ofLexemes_open role] at h
      exact ih h
    · cases pending with
      | nil =>
        rw [ofLexemes_stray role] at h
        exact ih h
      | cons opening pending =>
        rw [ofLexemes_close role] at h
        exact ih h
    · rw [ofLexemes_plain (Formula.isPlain_bar role)] at h
      exact ih h
    · rw [ofLexemes_plain hx.plain] at h
      exact ih h

end Brackets

namespace Formula

/-- The search for a bar does not go beyond a bracket that closes more than is open. -/
theorem hasClosingBar_of_unclosed {i depth : Nat} {pending : List (Nat × Word)} {s : List Lexeme}
    (h : (Brackets.ofLexemes i pending s).unclosed = []) (hdepth : depth ≤ pending.length)
    (closing : WordOf .closeBracket) (t : List Lexeme) :
    hasClosingBar depth (s ++ .symbol closing.1 :: t) =
      hasClosingBar depth (s ++ [.symbol closing.1]) := by
  induction s generalizing i depth pending with
  | nil =>
    obtain rfl : pending = [] := h
    obtain rfl : depth = 0 := Nat.le_zero.1 hdepth
    have hclosing : (Lexeme.symbol closing.1).role? = some .closeBracket := congrArg some closing.2
    rw [List.nil_append, List.nil_append, not_hasClosingBar_close hclosing,
      not_hasClosingBar_close hclosing]
  | cons x s ih =>
    rw [List.cons_append, List.cons_append]
    rcases bracket_cases x with ⟨word, rfl, role⟩ | ⟨word, rfl, role⟩ | ⟨word, rfl, role⟩ | hx
    · rw [Brackets.ofLexemes_open role] at h
      rw [hasClosingBar_open role, hasClosingBar_open role]
      exact ih h (Nat.succ_le_succ hdepth)
    · cases depth with
      | zero =>
        have hrole : (Lexeme.symbol word).role? = some .closeBracket := congrArg some role
        rw [not_hasClosingBar_close hrole, not_hasClosingBar_close hrole]
      | succ depth =>
        obtain ⟨opening, pending, rfl⟩ := List.exists_cons_of_length_pos
          (Nat.lt_of_lt_of_le (Nat.succ_pos depth) hdepth)
        rw [Brackets.ofLexemes_close role] at h
        rw [hasClosingBar_close role, hasClosingBar_close role]
        exact ih h (Nat.le_of_succ_le_succ hdepth)
    · rw [Brackets.ofLexemes_plain (isPlain_bar role)] at h
      cases depth with
      | zero => rw [hasClosingBar_bar_zero role, hasClosingBar_bar_zero role]
      | succ depth =>
        rw [hasClosingBar_bar role (Nat.succ_pos depth), hasClosingBar_bar role (Nat.succ_pos depth)]
        exact ih h hdepth
    · rw [Brackets.ofLexemes_plain hx.plain] at h
      rw [hasClosingBar_inert hx, hasClosingBar_inert hx]
      exact ih h hdepth

theorem alike_balanced {w : List Lexeme} (hw : Balanced w) (closing : WordOf .closeBracket)
    (t : List Lexeme) : Alike w [.symbol closing.1] (.symbol closing.1 :: t) := by
  refine ⟨(sameNext_closing closing [] t).1, .inl (sameNext_closing closing [] t).2, ?_⟩
  rintro u ⟨before, rfl⟩
  obtain ⟨i, pending, hu⟩ := Brackets.exists_unclosed_eq_nil hw.unclosed
  exact (hasClosingBar_of_unclosed hu (Nat.zero_le _) closing t).symm

/-! ## Operands that stand by themselves -/

/-- The lexemes are read as the operand whatever follows. -/
structure Freestanding (s : List Lexeme) (operand : Operand) : Prop where
  starts : atOperandEnd false s = false
  reads : ∀ t, ReadsOperand maxDepth false (s ++ t) operand t

variable {s : List Lexeme} {operand : Operand}

theorem Freestanding.goes (h : Freestanding s operand) (t : List Lexeme) :
    bodyEnds false false (s ++ t) = false := by
  cases s with
  | nil => cases h.starts
  | cons x s => rfl

theorem Freestanding.parse (h : Freestanding s operand) :
    parse s = [.scripted operand (.done .complete)] := by
  have hreads := h.reads []
  rw [List.append_nil] at hreads
  refine parse_operand ?_ hreads
  rintro rfl
  cases h.starts

theorem nodes_operand (operand : Operand) :
    nodes [.scripted operand (.done .complete)] = operand.fragment.nodes :=
  List.append_nil _

end Formula

/-- A lexeme that is an operand and opens nothing. -/
def Lexeme.isAtom : Lexeme → Bool
  | .symbol word => word.role.isLeaf || word.role = .wordOperator
  | _ => true

/-- A text that is an operand by itself: one lexeme, or a bracket with the one that closes it and no
comma directly inside. -/
inductive IsOperand (a : String) : Prop where
  | atom (token : Token) (tokens : tokenize a = [token]) (terminated : token.IsTerminated)
    (isAtom : token.lexeme.isAtom = true)
  | group (opening : WordOf .openBracket) (content : List Lexeme) (closing : WordOf .closeBracket)
    (lexemes : lexemes a = .symbol opening.1 :: (content ++ [.symbol closing.1]))
    (balanced : Balanced content)
    (commas : ∀ k, content[k]? = some (.symbol .comma) →
      (Brackets.matched content).Encloses k ∨
        Formula.BetweenBars (Formula.barUses (Formula.parse content)) k)
    (limits : WithinLimits (notices a))

/-- A single lexeme that is no text cannot lack a delimiter. -/
theorem IsOperand.of_token {a : String} {token : Token} (tokens : tokenize a = [token])
    (text : ∀ body, token.lexeme ≠ .text body) (isAtom : token.lexeme.isAtom = true) :
    IsOperand a :=
  .atom token tokens (fun body hbody => absurd hbody (text body)) isAtom

/-- The markup of an operand without the brackets around it. -/
def argumentNodes : List Lexeme → List Node
  | .symbol word :: s =>
    if word.role = .openBracket then
      Formula.nodes (Formula.parse s.dropLast)
    else
      Formula.nodes (Formula.parse (.symbol word :: s))
  | s => Formula.nodes (Formula.parse s)

/-- An operand as an argument: one node, without brackets around it. -/
def argumentNode (a : String) : Node := .singleOrRow (argumentNodes (lexemes a))

/-- Whether the operand is a symbol whose scripts stand under and over it. -/
def takesLimits (a : String) : Bool := (lexemes a).head?.bind Lexeme.role? = some .embellished

section

open Formula

/-- The operand stands by itself and has the markup of its text. -/
structure Formula.Represents (operand : Operand) (a : String) : Prop extends
    Freestanding (lexemes a) operand where
  argument : operand.fragment.argument = argumentNode a
  takesLimits : operand.takesLimits = FormulaMarkup.takesLimits a

variable {a : String} {x : Lexeme}

theorem Lexeme.role?_of_isAtom (h : x.isAtom = true) :
    x.role? ≠ some .openBracket ∧ x.role? ≠ some .closeBracket ∧ x.role? ≠ some .leftRight ∧
      x.announcesText = false := by
  cases x with
  | symbol word =>
    cases role : word.role <;>
      simp [isAtom, Role.isLeaf, role?_symbol, announcesText, role] at h ⊢
  | _ => simp [role?, symbol?, announcesText]

theorem Formula.Represents.of_reads {operand : Operand} (hx : x.isAtom = true)
    (hreads : ∀ t, ReadsOperand maxDepth false (x :: t) operand t) (ha : lexemes a = [x])
    (hargument : operand.fragment.argument = operand.fragment.single)
    (hlimits : operand.takesLimits = FormulaMarkup.takesLimits a) : Represents operand a := by
  obtain ⟨hopening, hclosing, hbar, -⟩ := Lexeme.role?_of_isAtom hx
  have hcloses : closes false x = false := by
    unfold closes
    split
    · next role => exact absurd role hclosing
    · rfl
    · rfl
  have hfree : Freestanding [x] operand := ⟨hcloses, hreads⟩
  have hnodes : argumentNodes [x] = nodes (parse [x]) := by
    unfold argumentNodes
    split
    · next word s heq =>
      cases heq
      exact if_neg fun role => hopening (congrArg some role)
    · rfl
  refine ⟨ha ▸ hfree, ?_, hlimits⟩
  rw [hargument, argumentNode, ha, hnodes, hfree.parse, nodes_operand]
  rfl

theorem Lexeme.exists_represents (hx : x.isAtom = true) (ha : lexemes a = [x]) :
    ∃ operand : Operand, Represents operand a := by
  have hlimits : takesLimits a = decide (x.role? = some .embellished) := by simp [takesLimits, ha]
  cases x with
  | number n =>
    have hargument : (Operand.number n).fragment.argument = (Operand.number n).fragment.single := by
      unfold Operand.fragment
      split <;> rfl
    exact ⟨_, .of_reads hx (fun _ => .number n) ha hargument hlimits.symm⟩
  | text body => exact ⟨_, .of_reads hx (fun _ => .text body) ha rfl hlimits.symm⟩
  | character c => exact ⟨_, .of_reads hx (fun _ => .character c) ha rfl hlimits.symm⟩
  | symbol word =>
    rcases Bool.or_eq_true_iff.1 hx with role | role
    · have hleaf : takesLimits a = decide (word.role = .embellished) := by
        simp [hlimits, role?_symbol]
      exact ⟨_, .of_reads hx (fun _ => .leaf word role) ha rfl hleaf.symm⟩
    · have role := of_decide_eq_true role
      have hkeyword : takesLimits a = false := by simp [hlimits, role?_symbol, role]
      exact ⟨_, .of_reads hx (fun _ => .keyword word role) ha rfl hkeyword.symm⟩

theorem IsOperand.exists_represents (h : IsOperand a) :
    ∃ operand : Operand, Represents operand a := by
  cases h with
  | atom token tokens terminated isAtom =>
    exact Lexeme.exists_represents isAtom (by rw [lexemes, tokens]; rfl)
  | group opening content closing hlexemes balanced commas limits =>
    rw [notices, ofInput, hlexemes] at limits
    obtain ⟨hgroup, hcontent⟩ := isGroup_bracketed opening closing balanced limits
    have hfree : Freestanding (lexemes a) (closedGroup opening (parse content) closing) := by
      rw [hlexemes]
      refine ⟨hgroup.starts_alone, fun t => hgroup.group_replace ?_⟩
      rw [yieldOfList_parse]
      exact alike_balanced balanced closing t
    refine ⟨_, hfree, ?_, ?_⟩
    · have hcommas := isComma_eq_false (shallow_of_withinLimits hcontent) commas
      have hresolve := Table.resolve_eq_self hcommas
      rw [argumentNode, hlexemes, argumentNodes, if_pos opening.2, List.dropLast_concat]
      exact congrArg (fun fragments => Node.singleOrRow (Fragment.nodesOfList fragments)) hresolve
    · have hlimits : FormulaMarkup.takesLimits a = false := by
        simp [FormulaMarkup.takesLimits, hlexemes, Lexeme.role?_symbol, opening.2]
      exact hlimits.symm

theorem Formula.Represents.single {operand : Operand} (h : Represents operand a)
    (settings : Settings) : operand.fragment.single = .singleOrRow (body settings a) := by
  rw [body_eq, ofInput, h.parse, nodes_operand]
  rfl

/-- An operand leaves nothing open. -/
theorem IsOperand.isClosed (h : IsOperand a) : IsClosed a := by
  cases h with
  | atom token tokens terminated isAtom =>
    refine ⟨by simpa [tokens] using terminated, ?_⟩
    rw [lexemes, tokens]
    exact (Lexeme.role?_of_isAtom isAtom).2.2.2
  | group opening content closing hlexemes balanced commas limits =>
    rw [← List.cons_append] at hlexemes
    exact isClosed_of_last hlexemes (by simp) (by simp [Lexeme.announcesText, closing.2])

end

end FormulaMarkup
