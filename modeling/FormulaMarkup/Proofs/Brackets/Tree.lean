import FormulaMarkup.Formula.Notice
import FormulaMarkup.Formula.Yield
import FormulaMarkup.Proofs.Brackets.Matcher

/-!
# The brackets of a formula

A group joins its opening bracket to the closing one. The notices tell which brackets have no
partner.
-/

namespace FormulaMarkup

/-- The brackets around a group that begins at `i` and whose content ends before `j`. -/
def Brackets.ofGroup (i j : Nat) (opening : Word) : Option (WordOf .closeBracket) → Brackets
  | some _ => ⟨[(i, j)], [], []⟩
  | none => ⟨[], [(i, opening)], []⟩

/-- Bars are no brackets, but the notices tell of them in the same way. -/
def Brackets.ofBars (i : Nat) (opening : Word) : Option (WordOf .leftRight) → Brackets
  | some _ => .empty
  | none => ⟨[], [(i, opening)], []⟩

mutual

/-- The brackets of an operand, the first lexeme of which is at place `i`. -/
def Operand.brackets : Operand → (i : Nat) → Brackets
  | .number _, _ | .text _, _ | .character _, _ | .leaf .., _ | .keyword .., _ | .beyondLimit .., _
  | .loneBar .., _ | .noArgument .., _ | .verbatim .., _ => .empty
  | .strayClosing word _, i => ⟨[], [], [(i, word)]⟩
  | .group opening _ body closing, i =>
    (Term.bracketsOfList body (i + 1)).seq
      (.ofGroup i (i + 1 + (Term.yieldOfList body).length) opening closing)
  | .bars opening _ body closing, i =>
    (Term.bracketsOfList body (i + 1)).seq (.ofBars i opening closing)
  | .function _ _ scripts argument, i =>
    (scripts.brackets (i + 1)).seq (argument.brackets (i + 1 + scripts.yield.length))
  | .functionAlone _ _ scripts, i => scripts.brackets (i + 1)
  | .unary _ _ _ argument, i => argument.brackets (i + 1)
  | .noSecond _ _ _ first, i => first.brackets (i + 1)
  | .binary _ _ _ first second, i =>
    (first.brackets (i + 1)).seq (second.brackets (i + 1 + first.yield.length))

def Scripts.brackets : Scripts → (i : Nat) → Brackets
  | .done _, _ => .empty
  | .cons _ operand more, i =>
    (operand.brackets (i + 1)).seq (more.brackets (i + 1 + operand.yield.length))

def Term.brackets : Term → (i : Nat) → Brackets
  | .scripted base scripts, i | .noDenominator base scripts, i =>
    (base.brackets i).seq (scripts.brackets (i + base.yield.length))
  | .fraction base scripts base' scripts', i =>
    let j := i + base.yield.length + scripts.yield.length + 1
    (base.brackets i).seq ((scripts.brackets (i + base.yield.length)).seq
      ((base'.brackets j).seq (scripts'.brackets (j + base'.yield.length))))

def Term.bracketsOfList : List Term → (i : Nat) → Brackets
  | [], _ => .empty
  | term :: terms, i =>
    (term.brackets i).seq (Term.bracketsOfList terms (i + term.yield.length))

end

/-! ## Notices -/

/-- The spelling of a closing bracket that nothing has opened. -/
def Notice.stray? : Notice → Option String
  | .strayClosing spelling => some spelling
  | _ => none

/-- The output of what opens a group without a closing bracket. -/
def Notice.unclosed? : Notice → Option String
  | .unclosed output => some output
  | _ => none

/-- The notices tell which brackets have no partner. -/
structure Tells (ns : List Notice) (b : Brackets) : Prop where
  stray : ns.filterMap Notice.stray? = b.stray.map (·.2.spelling)
  unclosed : ns.filterMap Notice.unclosed? = b.unclosed.map (·.2.symbol.output)

namespace Tells

variable {ns ms : List Notice} {a b : Brackets}

theorem nil : Tells [] .empty := ⟨rfl, rfl⟩

theorem append (h : Tells ns a) (h' : Tells ms b) : Tells (ns ++ ms) (a.seq b) := by
  constructor
  · rw [List.filterMap_append, h.stray, h'.stray, Brackets.seq, List.map_append]
  · rw [List.filterMap_append, h.unclosed, h'.unclosed, Brackets.seq, List.map_append]

theorem append_other {n : Notice} (h : Tells ns a) (hstray : n.stray? = none)
    (hunclosed : n.unclosed? = none) : Tells (ns ++ [n]) a := by
  constructor
  · simp [h.stray, hstray]
  · simp [h.unclosed, hunclosed]

end Tells

theorem Notice.ofGroup_tells (opening : Word) (i j : Nat)
    (closing : Option (WordOf .closeBracket)) :
    Tells (Notice.ofGroup opening closing) (.ofGroup i j opening closing) := by
  cases closing <;> exact ⟨rfl, rfl⟩

theorem Notice.ofBars_tells (opening : Word) (i : Nat) (closing : Option (WordOf .leftRight)) :
    Tells (Notice.ofGroup opening closing) (.ofBars i opening closing) := by
  cases closing <;> exact ⟨rfl, rfl⟩

theorem Notice.ofCall_tells (word : Word) : Tells [Notice.ofCall word] .empty := by
  unfold ofCall
  split <;> exact ⟨rfl, rfl⟩

theorem ScriptsEnd.tells (reason : ScriptsEnd) : Tells reason.notices .empty := by
  cases reason <;> exact ⟨rfl, rfl⟩

mutual

theorem Operand.tells : (operand : Operand) → (i : Nat) →
    Tells operand.notices (operand.brackets i)
  | .number _, _ | .text _, _ | .character _, _ | .leaf _ _, _ | .keyword _ _, _
  | .loneBar _ _, _ | .verbatim _ _ _, _ => .nil
  | .beyondLimit _ _, _ => ⟨rfl, rfl⟩
  | .strayClosing _ _, _ => ⟨rfl, rfl⟩
  | .noArgument word _, _ => Notice.ofCall_tells word
  | .group opening _ body closing, i =>
    (Term.tellsList body (i + 1)).append (Notice.ofGroup_tells opening i _ closing)
  | .bars opening _ body closing, i =>
    (Term.tellsList body (i + 1)).append (Notice.ofBars_tells opening i closing)
  | .function _ _ scripts argument, i =>
    (Scripts.tells scripts (i + 1)).append (Operand.tells argument _)
  | .functionAlone _ _ scripts, i => (Scripts.tells scripts (i + 1)).append_other rfl rfl
  | .unary _ _ _ argument, i => Operand.tells argument (i + 1)
  | .noSecond _ _ _ first, i => (Operand.tells first (i + 1)).append_other rfl rfl
  | .binary _ _ _ first second, i =>
    (Operand.tells first (i + 1)).append (Operand.tells second _)

theorem Scripts.tells : (scripts : Scripts) → (i : Nat) →
    Tells scripts.notices (scripts.brackets i)
  | .done reason, _ => reason.tells
  | .cons _ operand more, i => (Operand.tells operand (i + 1)).append (Scripts.tells more _)

theorem Term.tells : (term : Term) → (i : Nat) → Tells term.notices (term.brackets i)
  | .scripted base scripts, i => (Operand.tells base i).append (Scripts.tells scripts _)
  | .noDenominator base scripts, i =>
    (Operand.tells base i).append ((Scripts.tells scripts _).append_other rfl rfl)
  | .fraction base scripts base' scripts', i =>
    (Operand.tells base i).append ((Scripts.tells scripts _).append
      ((Operand.tells base' _).append (Scripts.tells scripts' _)))

theorem Term.tellsList : (terms : List Term) → (i : Nat) →
    Tells (Term.noticesOfList terms) (Term.bracketsOfList terms i)
  | [], _ => .nil
  | term :: terms, i => (Term.tells term i).append (Term.tellsList terms _)

end

end FormulaMarkup
