import FormulaMarkup.Formula.Yield
import FormulaMarkup.Proofs.Markup.Scripts

/-!
# The order in which the markup shows the lexemes

An accent stands after its argument, the arguments of some functions change places, and a subscript
comes before the superscript of its level. Everything else keeps the order of the input.
-/

namespace FormulaMarkup

def Word.unaryShown (word : Word) (kind : UnaryKind) (argument : List Lexeme) : List Lexeme :=
  match kind with
  | .accentOver | .accentUnder => argument ++ [.symbol word]
  | _ => .symbol word :: argument

def Word.binaryShown (word : Word) (order : ArgOrder) (first second : List Lexeme) : List Lexeme :=
  match order with
  | .preserve => .symbol word :: (first ++ second)
  | .swap => .symbol word :: (second ++ first)

def Scripts.arranged (chain : List (Marker × List Lexeme)) : List Lexeme :=
  (ScriptLevel.arrange chain).flatMap fun script => .symbol script.1.word :: script.2

mutual

/-- The lexemes of an operand, in the order of the markup. -/
def Operand.shown : Operand → List Lexeme
  | .number n => [.number n]
  | .text body => [.text body]
  | .character c => [.character c]
  | .leaf word _ | .keyword word _ | .strayClosing word _ | .beyondLimit word _ | .loneBar word _
  | .noArgument word _ => [.symbol word]
  | .group opening _ body closing =>
    .symbol opening :: (Term.shownOfList body ++ Word.closingYield closing)
  | .bars opening _ body closing =>
    .symbol opening :: (Term.shownOfList body ++ Word.closingYield closing)
  | .function name _ scripts argument =>
    .symbol name :: (Scripts.arranged scripts.shownEach ++ argument.shown)
  | .functionAlone name _ scripts => .symbol name :: Scripts.arranged scripts.shownEach
  | .verbatim word _ body => [.symbol word, .text body]
  | .unary word kind _ argument => word.unaryShown kind argument.shown
  | .noSecond word _ _ first => .symbol word :: first.shown
  | .binary word order _ first second => word.binaryShown order first.shown second.shown

def Scripts.shownEach : Scripts → List (Marker × List Lexeme)
  | .done _ => []
  | .cons marker operand more => (marker, operand.shown) :: more.shownEach

def Term.shown : Term → List Lexeme
  | .scripted base scripts => base.shown ++ Scripts.arranged scripts.shownEach
  | .noDenominator base scripts => base.shown ++ Scripts.arranged scripts.shownEach
  | .fraction base scripts base' scripts' =>
    base.shown ++ (Scripts.arranged scripts.shownEach ++
      .symbol .slash :: (base'.shown ++ Scripts.arranged scripts'.shownEach))

def Term.shownOfList : List Term → List Lexeme
  | [] => []
  | term :: terms => term.shown ++ Term.shownOfList terms

end

/-! ## No lexeme is lost or added -/

theorem Word.unaryShown_perm (word : Word) (kind : UnaryKind) {s t : List Lexeme} (h : s.Perm t) :
    (word.unaryShown kind s).Perm (.symbol word :: t) := by
  have hlast : (s ++ [Lexeme.symbol word]).Perm (.symbol word :: t) :=
    List.perm_append_comm.trans (h.cons _)
  cases kind with
  | accentOver => exact hlast
  | accentUnder => exact hlast
  | _ => exact h.cons _

theorem Word.binaryShown_perm (word : Word) (order : ArgOrder) {s s' t t' : List Lexeme}
    (h : s.Perm t) (h' : s'.Perm t') :
    (word.binaryShown order s s').Perm (.symbol word :: (t ++ t')) := by
  cases order with
  | preserve => exact (h.append h').cons _
  | swap => exact (List.perm_append_comm.trans (h.append h')).cons _

theorem Scripts.arranged_perm (chain : List (Marker × List Lexeme)) :
    (Scripts.arranged chain).Perm (chain.flatMap fun script => .symbol script.1.word :: script.2) :=
  (ScriptLevel.arrange_perm chain).flatMap_right _

mutual

theorem Operand.shown_perm : (operand : Operand) → operand.shown.Perm operand.yield
  | .number _ | .text _ | .character _ | .leaf _ _ | .keyword _ _ | .strayClosing _ _
  | .beyondLimit _ _ | .loneBar _ _ | .noArgument _ _ | .verbatim _ _ _ => .refl _
  | .group _ _ body _ => ((Term.shownOfList_perm body).append_right _).cons _
  | .bars _ _ body _ => ((Term.shownOfList_perm body).append_right _).cons _
  | .function _ _ scripts argument =>
    ((Scripts.shown_perm scripts).append (Operand.shown_perm argument)).cons _
  | .functionAlone _ _ scripts => (Scripts.shown_perm scripts).cons _
  | .unary word kind _ argument => word.unaryShown_perm kind (Operand.shown_perm argument)
  | .noSecond _ _ _ first => (Operand.shown_perm first).cons _
  | .binary word order _ first second =>
    word.binaryShown_perm order (Operand.shown_perm first) (Operand.shown_perm second)

theorem Scripts.shown_perm : (scripts : Scripts) →
    (Scripts.arranged scripts.shownEach).Perm scripts.yield
  | .done _ => .nil
  | .cons marker operand more => by
    have hmore := (Scripts.arranged_perm _).symm.trans (Scripts.shown_perm more)
    have hchain := Scripts.arranged_perm ((marker, operand.shown) :: more.shownEach)
    rw [List.flatMap_cons, List.cons_append] at hchain
    exact hchain.trans (((Operand.shown_perm operand).append hmore).cons _)

theorem Term.shown_perm : (term : Term) → term.shown.Perm term.yield
  | .scripted base scripts | .noDenominator base scripts =>
    (Operand.shown_perm base).append (Scripts.shown_perm scripts)
  | .fraction base scripts base' scripts' => by
    have hdenominator := (Operand.shown_perm base').append (Scripts.shown_perm scripts')
    exact (Operand.shown_perm base).append
      ((Scripts.shown_perm scripts).append (hdenominator.cons _))

theorem Term.shownOfList_perm : (terms : List Term) →
    (Term.shownOfList terms).Perm (Term.yieldOfList terms)
  | [] => .nil
  | term :: terms => (Term.shown_perm term).append (Term.shownOfList_perm terms)

end

end FormulaMarkup
