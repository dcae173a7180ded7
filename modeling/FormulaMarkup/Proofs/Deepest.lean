import FormulaMarkup.Proofs.Depth
import FormulaMarkup.Proofs.Grammar.Yield
import FormulaMarkup.Proofs.Token.Spacing
import Mathlib.Order.Bounds.Defs

/-!
# The deepest markup

A chain of scripts has fewer levels the more groups are around it, but what levels its base has
already does not count. So chains that are as long as they may be add up, where the base of each is a
group with the next one in it. Such towers are as high as any markup can be.
-/

namespace FormulaMarkup

namespace Formula

/-! ## Towers -/

namespace Tower

def keyword : Word := ⟨"if", .wordOperator "if", by decide⟩

def opening : Word := ⟨"(", .openBracket "(", by decide⟩

def closing : WordOf .closeBracket := ⟨⟨")", .closeBracket ")", by decide⟩, rfl⟩

/-- The operand that all scripts and denominators are. -/
def leaf : Operand := .keyword keyword rfl

def scripts : (levels : Nat) → Scripts
  | 0 => .done .complete
  | levels + 1 => .cons .sub leaf (scripts levels)

/-- As many scripts as there may be on a base, and a denominator below. -/
def term (room : Nat) (base : Operand) : Term :=
  .fraction base (scripts (max room 1)) leaf (.done .complete)

/-- Groups up to the last level, each in the base of a fraction. -/
def base : (room : Nat) → Operand
  | 0 => leaf
  | room + 1 => .group opening rfl [term room (base room)] (some closing)

/-! ## Reading a tower -/

variable {room : Nat} {left : List Lexeme}

/-- After the first script each one begins a level, and there are fewer levels than `room`. -/
theorem scripts_reads {levels n : Nat} (h : n + levels < max room 1)
    (hleft : ∀ x ∈ left.head?, x.marker? = none) :
    ReadsScripts room false ⟨true, false, n⟩ ((scripts levels).yield ++ left) (scripts levels)
      left := by
  induction levels generalizing n with
  | zero => exact .complete hleft
  | succ levels ih =>
    have hfree : (Slots.isTaken ⟨true, false, n⟩ .sub && room ≤ n + 1) = false := by
      simp only [Slots.isTaken, Bool.true_and, decide_eq_false_iff_not]
      omega
    have hmore : n + 1 + levels < max room 1 := by omega
    exact .cons .sub rfl hfree (.keyword keyword rfl) (ih hmore)

theorem scripts_reads_empty {levels : Nat} (h : levels ≤ max room 1)
    (hleft : ∀ x ∈ left.head?, x.marker? = none) :
    ReadsScripts room false .empty ((scripts levels).yield ++ left) (scripts levels) left := by
  cases levels with
  | zero => exact .complete hleft
  | succ levels =>
    have hmore : 0 + levels < max room 1 := by omega
    exact .cons .sub rfl rfl (.keyword keyword rfl) (scripts_reads hmore hleft)

theorem term_reads {operand : Operand}
    (h : ∀ left, ReadsOperand room false (operand.yield ++ left) operand left)
    (hleft : ∀ x ∈ left.head?, x.marker? = none) :
    ReadsTerm room false ((term room operand).yield ++ left) (term room operand) left := by
  have hslash : ∀ x ∈ (Lexeme.symbol .slash :: .symbol keyword :: left).head?, x.marker? = none := by
    simp only [List.head?_cons, Option.mem_def, Option.some.injEq, forall_eq']
    decide
  have hread := ReadsTerm.fraction (h _) (scripts_reads_empty (Nat.le_refl _) hslash) rfl
    (.keyword keyword rfl) (.complete hleft)
  simpa [term, Term.yield, leaf, Operand.yield, Scripts.yield] using hread

theorem bodyEnds_base (room : Nat) (inGroup : Bool) (left : List Lexeme) :
    bodyEnds false inGroup ((base room).yield ++ left) = false := by
  cases room with
  | zero => cases inGroup <;> rfl
  | succ room => cases inGroup <;> rfl

theorem body_reads {inGroup : Bool}
    (h : ∀ left, ReadsOperand room false ((base room).yield ++ left) (base room) left)
    (hleft : ∀ x ∈ left.head?, x.marker? = none) (hends : bodyEnds false inGroup left = true) :
    ReadsBody room false inGroup ((term room (base room)).yield ++ left) [term room (base room)]
      left := by
  refine .cons ?_ (term_reads h hleft) (.nil hends)
  rw [term, Term.yield, List.append_assoc]
  exact bodyEnds_base room inGroup _

theorem base_reads (room : Nat) (left : List Lexeme) :
    ReadsOperand room false ((base room).yield ++ left) (base room) left := by
  induction room generalizing left with
  | zero => exact .keyword keyword rfl
  | succ room ih =>
    have hclosing : ∀ x ∈ (Lexeme.symbol closing.1 :: left).head?, x.marker? = none := by
      simp only [List.head?_cons, Option.mem_def, Option.some.injEq, forall_eq']
      decide
    have hread : ReadsOperand (room + 1) false _ (base (room + 1)) left :=
      .group opening rfl (body_reads ih hclosing rfl) (.closed closing left)
    simpa [base, Operand.yield, Term.yieldOfList, Word.closingYield] using hread

/-- A tower is read as it was written. -/
theorem parse_yield :
    parse (term maxDepth (base maxDepth)).yield = [term maxDepth (base maxDepth)] := by
  have hread : ReadsBody maxDepth false false _ [term maxDepth (base maxDepth)] [] :=
    body_reads (base_reads maxDepth) (by simp) rfl
  rw [List.append_nil] at hread
  exact parse_eq_iff.2 hread

/-! ## The words of a tower -/

theorem scripts_words (levels : Nat) : ∀ x ∈ (scripts levels).yield, x.IsPlainWord := by
  induction levels with
  | zero => exact List.forall_mem_nil _
  | succ levels ih =>
    simp only [scripts, leaf, Scripts.yield, Operand.yield, List.cons_append, List.nil_append,
      List.forall_mem_cons]
    exact ⟨⟨_, rfl, by decide⟩, ⟨_, rfl, by decide⟩, ih⟩

theorem term_words {operand : Operand} (h : ∀ x ∈ operand.yield, x.IsPlainWord) (room : Nat) :
    ∀ x ∈ (term room operand).yield, x.IsPlainWord := by
  simp only [term, leaf, Term.yield, Operand.yield, Scripts.yield, List.forall_mem_append,
    List.forall_mem_cons]
  exact ⟨h, scripts_words _, ⟨_, rfl, by decide⟩, ⟨⟨_, rfl, by decide⟩, List.forall_mem_nil _⟩,
    List.forall_mem_nil _⟩

theorem base_words (room : Nat) : ∀ x ∈ (base room).yield, x.IsPlainWord := by
  induction room with
  | zero =>
    simp only [base, leaf, Operand.yield, List.forall_mem_singleton]
    exact ⟨_, rfl, by decide⟩
  | succ room ih =>
    simp only [base, Operand.yield, Term.yieldOfList, Word.closingYield, List.forall_mem_append,
      List.forall_mem_cons]
    exact ⟨⟨_, rfl, by decide⟩, ⟨term_words ih room, List.forall_mem_nil _⟩, ⟨_, rfl, by decide⟩,
      List.forall_mem_nil _⟩

/-! ## How high a tower is -/

theorem length_levels (levels : Nat) :
    (ScriptLevel.ofChain (scripts levels).chain).length = levels := by
  induction levels with
  | zero => rfl
  | succ levels ih =>
    cases levels with
    | zero => rfl
    | succ levels => exact congrArg (· + 1) ih

theorem le_term_height {operand : Operand} {n : Nat} (h : n ≤ operand.fragment.height)
    (room : Nat) : n + max room 1 + 1 ≤ (term room operand).fragment.height := by
  have hlength := length_levels (max room 1)
  have hchain : (scripts (max room 1)).chain ≠ [] := by
    intro hnil
    rw [hnil] at hlength
    have hzero : 0 = max room 1 := hlength
    omega
  have hscripts := Fragment.le_argument_withScripts operand.takesLimits operand.fragment hchain
  rw [hlength] at hscripts
  have hfraction : (Fragment.withScripts operand.takesLimits operand.fragment
      (scripts (max room 1)).chain).argument.height < (term room operand).fragment.height :=
    Node.height_lt_of_mem List.mem_cons_self
  omega

theorem single_mem_nodes (room : Nat) (operand : Operand) :
    (term room operand).fragment.single ∈ Formula.nodes [term room operand] :=
  List.mem_cons_self

/-- Towers are as high as operands can be. -/
theorem maxHeight_le (room : Nat) : maxHeight room ≤ (base room).fragment.height := by
  induction room with
  | zero => exact Nat.le_refl 2
  | succ room ih =>
    -- The fraction in the group is no group itself, so no table takes its place.
    have hgroup : (base (room + 1)).fragment =
        .group opening.symbol (some closing.1.symbol) [(term room (base room)).fragment] false := rfl
    have hlt : (term room (base room)).fragment.height < (base (room + 1)).fragment.height := by
      rw [hgroup]
      exact Fragment.height_lt_group List.mem_cons_self
    exact Nat.lt_of_le_of_lt (le_term_height ih room) hlt

/-- There is an input whose markup is as high as the bound. -/
theorem exists_le_compile_height : ∃ input, ∀ settings,
    maxHeight maxDepth + max maxDepth 1 + 3 ≤ (compile settings input).height := by
  obtain ⟨input, hinput⟩ := exists_lexemes_eq (term_words (base_words maxDepth) maxDepth)
  have hformula : Formula.ofInput input = [term maxDepth (base maxDepth)] := by
    rw [Formula.ofInput, hinput, parse_yield]
  have hmem := single_mem_nodes maxDepth (base maxDepth)
  have hterm : maxHeight maxDepth + max maxDepth 1 + 1 ≤
      (term maxDepth (base maxDepth)).fragment.single.height :=
    le_term_height (maxHeight_le maxDepth) maxDepth
  rw [← hformula] at hmem
  refine ⟨input, fun settings => ?_⟩
  have hle := le_compile_height settings hmem
  omega

end Tower

end Formula

/-- The longest path in the markup of any input has 8518 nodes. -/
theorem isGreatest_depth (settings : Settings) :
    IsGreatest {n | ∃ input path, (compile settings input).Descends path ∧ path.length = n}
      8518 := by
  have hbound : Formula.maxHeight Formula.maxDepth + max Formula.maxDepth 1 + 3 = 8518 := by
    decide +kernel
  constructor
  · obtain ⟨input, hinput⟩ := Formula.Tower.exists_le_compile_height
    have hge := hinput settings
    have hle := compile_height_le settings input
    obtain ⟨path, hpath, hlength⟩ := (compile settings input).exists_descends
    exact ⟨input, path, hpath, by omega⟩
  · rintro n ⟨input, path, hpath, rfl⟩
    have hheight := compile_height_le settings input
    have hlength := hpath.length_le
    omega

end FormulaMarkup
