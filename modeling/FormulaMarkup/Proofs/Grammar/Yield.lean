import FormulaMarkup.Formula.Yield
import FormulaMarkup.Proofs.Grammar.Reader

/-!
# Reading a formula neither loses nor adds a lexeme

A derivation takes the lexemes of what it reads, and then come those that are left.
-/

namespace FormulaMarkup.Formula

theorem ReadsClosing.yield_append {role : Role} {s left : List Lexeme}
    {closing : Option (WordOf role)} (h : ReadsClosing role s closing left) :
    Word.closingYield closing ++ left = s := by
  cases h with
  | closed => rfl
  | unclosed => rfl

mutual

theorem ReadsOperand.yield_append {room inBar s operand left} :
    ReadsOperand room inBar s operand left → operand.yield ++ left = s
  | .number _ | .text _ | .character _ | .leaf _ _ | .keyword _ _ | .strayClosing _ _
  | .beyondLimit _ _ | .loneBar _ _ _ | .noArgument _ _ _ | .verbatim _ _ _ => rfl
  | .group _ _ content close => by
    simp only [Operand.yield, List.cons_append, List.append_assoc]
    rw [close.yield_append, content.yield_append]
  | .bars _ _ _ content close => by
    simp only [Operand.yield, List.cons_append, List.append_assoc]
    rw [close.yield_append, content.yield_append]
  | .function _ _ first _ second => by
    simp only [Operand.yield, List.cons_append, List.append_assoc]
    rw [second.yield_append, first.yield_append]
  | .functionAlone _ _ first _ => by
    simp only [Operand.yield, List.cons_append]
    rw [first.yield_append]
  | .unary _ _ _ _ _ first => by
    simp only [Operand.yield, List.cons_append]
    rw [first.yield_append]
  | .noSecond _ _ _ _ first _ => by
    simp only [Operand.yield, List.cons_append]
    rw [first.yield_append]
  | .binary _ _ _ _ first _ second => by
    simp only [Operand.yield, List.cons_append, List.append_assoc]
    rw [second.yield_append, first.yield_append]

theorem ReadsScripts.yield_append {room inBar slots s scripts left} :
    ReadsScripts room inBar slots s scripts left → scripts.yield ++ left = s
  | .complete _ | .noOperand _ _ | .limit _ _ _ => rfl
  | .cons _ _ _ first rest => by
    simp only [Scripts.yield, List.cons_append, List.append_assoc]
    rw [rest.yield_append, first.yield_append]

theorem ReadsTerm.yield_append {room inBar s term left} :
    ReadsTerm room inBar s term left → term.yield ++ left = s
  | .scripted first second _ => by
    rw [Term.yield, List.append_assoc, second.yield_append, first.yield_append]
  | .noDenominator first second _ => by
    rw [Term.yield, List.append_assoc, second.yield_append, first.yield_append]
  | .fraction first second _ third fourth => by
    simp only [Term.yield, List.append_assoc, List.cons_append]
    rw [fourth.yield_append, third.yield_append, second.yield_append, first.yield_append]

theorem ReadsBody.yield_append {room inBar inGroup s terms left} :
    ReadsBody room inBar inGroup s terms left → Term.yieldOfList terms ++ left = s
  | .nil _ => rfl
  | .cons _ first rest => by
    rw [Term.yieldOfList, List.append_assoc, rest.yield_append, first.yield_append]

end

/-! ## What is left -/

section

variable {room : Nat} {inBar : Bool} {s left : List Lexeme}

theorem ReadsOperand.length_lt {operand : Operand} (h : ReadsOperand room inBar s operand left) :
    left.length < s.length := by
  rw [← h.yield_append, List.length_append]
  exact Nat.lt_add_of_pos_left (List.length_pos_iff.2 operand.yield_ne_nil)

theorem ReadsScripts.length_le {slots : Slots} {scripts : Scripts}
    (h : ReadsScripts room inBar slots s scripts left) : left.length ≤ s.length := by
  rw [← h.yield_append, List.length_append]
  exact Nat.le_add_left _ _

theorem ReadsTerm.length_lt {term : Term} (h : ReadsTerm room inBar s term left) :
    left.length < s.length := by
  cases h with
  | scripted first second _ => exact Nat.lt_of_le_of_lt second.length_le first.length_lt
  | noDenominator first second _ => exact Nat.lt_of_le_of_lt second.length_le first.length_lt
  | fraction first second _ third fourth =>
    have hfirst := first.length_lt
    have hsecond := second.length_le
    have hthird := third.length_lt
    have hfourth := fourth.length_le
    rw [List.length_cons] at hsecond
    omega

end

/-- A formula is made of exactly the lexemes it was read from. -/
theorem yieldOfList_parse (s : List Lexeme) : Term.yieldOfList (parse s) = s := by
  have h := (parse_reads s).yield_append
  rwa [List.append_nil] at h

end FormulaMarkup.Formula
