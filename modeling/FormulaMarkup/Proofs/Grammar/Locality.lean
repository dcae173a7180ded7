import FormulaMarkup.Formula.Notice
import FormulaMarkup.Proofs.Grammar.Yield

/-!
# Reading does not look beyond a formula without fault

A part at fault may be so because the input ends, and a bar looks for another one. Every other part
is read in the same way whatever follows, as long as no script or fraction bar does.
-/

namespace FormulaMarkup.Formula

/-- The lexemes do not go on with what stands before them. -/
def Separate (t : List Lexeme) : Prop := ∀ x ∈ t.head?, x.marker? = none ∧ x ≠ .symbol .slash

instance (t : List Lexeme) : Decidable (Separate t) :=
  inferInstanceAs (Decidable (∀ x ∈ t.head?, x.marker? = none ∧ x ≠ .symbol .slash))

def NoBars (s : List Lexeme) : Prop := ∀ x ∈ s, x.role? ≠ some .leftRight

theorem NoBars.append {s t : List Lexeme} : NoBars (s ++ t) ↔ NoBars s ∧ NoBars t :=
  List.forall_mem_append

theorem NoBars.cons {x : Lexeme} {s : List Lexeme} :
    NoBars (x :: s) ↔ x.role? ≠ some .leftRight ∧ NoBars s :=
  List.forall_mem_cons

theorem not_noBars {word : Word} (role : word.role = .leftRight) {s : List Lexeme} :
    ¬ NoBars (.symbol word :: s) := by
  intro h
  exact (NoBars.cons.1 h).1 (congrArg some role)

/-! ## The next lexeme -/

variable {inBar inGroup : Bool} {s t : List Lexeme}

theorem atOperandEnd_append (h : atOperandEnd inBar s = false) (t : List Lexeme) :
    atOperandEnd inBar (s ++ t) = false := by
  cases s with
  | nil => cases h
  | cons x s => exact h

theorem bodyEnds_append (h : s ≠ []) (t : List Lexeme) :
    bodyEnds inBar inGroup (s ++ t) = bodyEnds inBar inGroup s := by
  cases s with
  | nil => exact absurd rfl h
  | cons x s => rfl

theorem goes_append (h : bodyEnds inBar inGroup s = false) (t : List Lexeme) :
    bodyEnds inBar inGroup (s ++ t) = false := by
  cases s with
  | nil => cases h
  | cons x s => exact h

theorem Separate.marker? (ht : Separate t) (h : ∀ x ∈ s.head?, x.marker? = none) :
    ∀ x ∈ (s ++ t).head?, x.marker? = none := by
  cases s with
  | nil => exact fun x hx => (ht x hx).1
  | cons y s => exact h

theorem Separate.slash (ht : Separate t) (h : s.head? ≠ some (.symbol .slash)) :
    (s ++ t).head? ≠ some (.symbol .slash) := by
  cases s with
  | nil => exact fun hslash => (ht _ hslash).2 rfl
  | cons y s => exact h

theorem ReadsClosing.append {role : Role} {left : List Lexeme} {closing : Option (WordOf role)}
    (h : ReadsClosing role s closing left) (hclosing : closing ≠ none) (t : List Lexeme) :
    s ≠ [] ∧ ReadsClosing role (s ++ t) closing (left ++ t) := by
  cases h with
  | closed word => exact ⟨List.cons_ne_nil _ _, .closed word (left ++ t)⟩
  | unclosed next => exact absurd rfl hclosing

theorem closing_ne_none {opening : Word} {role : Role} {closing : Option (WordOf role)}
    (h : Notice.ofGroup opening closing = []) : closing ≠ none := by
  rintro rfl
  cases h

/-! ## Parts of formulas -/

mutual

theorem ReadsOperand.append {room inBar s operand left t} (ht : Separate t) :
    ReadsOperand room inBar s operand left → operand.notices = [] → NoBars operand.yield →
      ReadsOperand room inBar (s ++ t) operand (left ++ t)
  | .number n, _, _ => .number n
  | .text body, _, _ => .text body
  | .character c, _, _ => .character c
  | .leaf word role, _, _ => .leaf word role
  | .keyword word role, _, _ => .keyword word role
  | .strayClosing _ _, hn, _ => by cases hn
  | .beyondLimit _ _, hn, _ => by cases hn
  | .group word role content close, hn, hb => by
    obtain ⟨hbody, hgroup⟩ := List.append_eq_nil_iff.1 hn
    obtain ⟨hl, hclose⟩ := close.append (closing_ne_none hgroup) t
    have hinner := (NoBars.append.1 (NoBars.cons.1 hb).2).1
    exact .group word role (content.append ht hl hbody hinner) hclose
  | .loneBar word role _, _, hb => absurd hb (not_noBars role)
  | .bars word role _ _ _, _, hb => absurd hb (not_noBars role)
  | .function word role first more second, hn, hb => by
    obtain ⟨hscripts, hargument⟩ := List.append_eq_nil_iff.1 hn
    obtain ⟨hb, hb'⟩ := NoBars.append.1 (NoBars.cons.1 hb).2
    exact .function word role (first.append ht hscripts hb) (atOperandEnd_append more t)
      (second.append ht hargument hb')
  | .functionAlone _ _ _ _, hn, _ => by cases (List.append_eq_nil_iff.1 hn).2
  | .noArgument _ _ _, hn, _ => by cases hn
  | .verbatim word role body, _, _ => .verbatim word role body
  | .unary (s := s) word kind role more markup first, hn, hb => by
    have hmarkup : kind = .text → ∀ body, (s ++ t).head? ≠ some (.text body) := by
      cases s with
      | nil => cases more
      | cons x s => exact markup
    exact .unary word kind role (atOperandEnd_append more t) hmarkup
      (first.append ht hn (NoBars.cons.1 hb).2)
  | .noSecond _ _ _ _ _ _, hn, _ => by cases (List.append_eq_nil_iff.1 hn).2
  | .binary word order role more first more' second, hn, hb => by
    obtain ⟨hfirst, hsecond⟩ := List.append_eq_nil_iff.1 hn
    obtain ⟨hb, hb'⟩ := NoBars.append.1 (NoBars.cons.1 hb).2
    exact .binary word order role (atOperandEnd_append more t) (first.append ht hfirst hb)
      (atOperandEnd_append more' t) (second.append ht hsecond hb')

theorem ReadsScripts.append {room inBar slots s scripts left t} (ht : Separate t) :
    ReadsScripts room inBar slots s scripts left → scripts.notices = [] → NoBars scripts.yield →
      ReadsScripts room inBar slots (s ++ t) scripts (left ++ t)
  | .complete next, _, _ => .complete (ht.marker? next)
  | .noOperand _ _, hn, _ => by cases hn
  | .limit _ _ _, hn, _ => by cases hn
  | .cons marker more free first rest, hn, hb => by
    obtain ⟨hfirst, hrest⟩ := List.append_eq_nil_iff.1 hn
    obtain ⟨hb, hb'⟩ := NoBars.append.1 (NoBars.cons.1 hb).2
    exact .cons marker (atOperandEnd_append more t) free (first.append ht hfirst hb)
      (rest.append ht hrest hb')

theorem ReadsTerm.append {room inBar s term left t} (ht : Separate t) :
    ReadsTerm room inBar s term left → term.notices = [] → NoBars term.yield →
      ReadsTerm room inBar (s ++ t) term (left ++ t)
  | .scripted first second next, hn, hb => by
    obtain ⟨hfirst, hsecond⟩ := List.append_eq_nil_iff.1 hn
    obtain ⟨hb, hb'⟩ := NoBars.append.1 hb
    exact .scripted (first.append ht hfirst hb) (second.append ht hsecond hb') (ht.slash next)
  | .noDenominator _ _ _, hn, _ => by
    cases (List.append_eq_nil_iff.1 (List.append_eq_nil_iff.1 hn).2).2
  | .fraction first second more third fourth, hn, hb => by
    obtain ⟨hfirst, hn⟩ := List.append_eq_nil_iff.1 hn
    obtain ⟨hsecond, hn⟩ := List.append_eq_nil_iff.1 hn
    obtain ⟨hthird, hfourth⟩ := List.append_eq_nil_iff.1 hn
    obtain ⟨hb, hb'⟩ := NoBars.append.1 hb
    obtain ⟨hb', hb''⟩ := NoBars.append.1 hb'
    obtain ⟨hb'', hb'''⟩ := NoBars.append.1 (NoBars.cons.1 hb'').2
    exact .fraction (first.append ht hfirst hb) (second.append ht hsecond hb')
      (atOperandEnd_append more t) (third.append ht hthird hb'') (fourth.append ht hfourth hb''')

/-- The content of a group is read up to what closes the group. -/
theorem ReadsBody.append {room inBar s terms left t} (ht : Separate t) :
    ReadsBody room inBar true s terms left → left ≠ [] → Term.noticesOfList terms = [] →
      NoBars (Term.yieldOfList terms) → ReadsBody room inBar true (s ++ t) terms (left ++ t)
  | .nil ends, hl, _, _ => .nil (by rw [bodyEnds_append hl]; exact ends)
  | .cons goes first rest, hl, hn, hb => by
    obtain ⟨hfirst, hrest⟩ := List.append_eq_nil_iff.1 hn
    obtain ⟨hb, hb'⟩ := NoBars.append.1 hb
    exact .cons (goes_append goes t) (first.append ht hfirst hb) (rest.append ht hl hrest hb')

end

/-! ## Formulas -/

/-- After a formula without fault another one can be read. -/
theorem ReadsBody.concat {room inBar s terms l t terms' left} (ht : Separate t)
    (hmore : ReadsBody room inBar false t terms' left) :
    ReadsBody room inBar false s terms l → Term.noticesOfList terms = [] →
      NoBars (Term.yieldOfList terms) →
      ReadsBody room inBar false (s ++ t) (terms ++ terms') left
  | .nil ends, _, _ => by
    have hempty : ReadsBody room inBar false s [] s := .nil ends
    rw [hempty.left_eq_nil]
    exact hmore
  | .cons goes first rest, hn, hb => by
    obtain ⟨hfirst, hrest⟩ := List.append_eq_nil_iff.1 hn
    obtain ⟨hb, hb'⟩ := NoBars.append.1 hb
    exact .cons (goes_append goes t) (first.append ht hfirst hb) (hmore.concat ht rest hrest hb')

theorem parse_append {s t : List Lexeme} (hn : Term.noticesOfList (parse s) = []) (hb : NoBars s)
    (ht : Separate t) : parse (s ++ t) = parse s ++ parse t := by
  refine parse_eq_iff.2 (ReadsBody.concat ht (parse_reads t) (parse_reads s) hn ?_)
  rwa [yieldOfList_parse]

end FormulaMarkup.Formula
