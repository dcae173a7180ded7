import FormulaMarkup.Converter
import FormulaMarkup.Proofs.Grammar.Locality
import FormulaMarkup.Proofs.Token.Run

/-!
# Formulas one after another

A formula without fault leaves nothing open: no function waits for an argument, no bracket for
another one, and no word for verbatim text. So what follows it is read as it is on its own.
-/

namespace FormulaMarkup

/-! ## The last lexeme -/

/-- The last lexeme does not announce verbatim text. -/
def Settled (s : List Lexeme) : Prop := ∀ x ∈ s.getLast?, x.announcesText = false

theorem Settled.append {s t : List Lexeme} (hs : Settled s) (ht : Settled t) :
    Settled (s ++ t) := by
  intro x hx
  rw [List.getLast?_append] at hx
  cases h : t.getLast? with
  | none =>
    rw [h] at hx
    exact hs x hx
  | some y =>
    rw [h] at hx
    exact ht x (by rw [h]; exact hx)

theorem Settled.cons {x : Lexeme} {s : List Lexeme} (hs : Settled s)
    (hx : x.announcesText = false ∨ s ≠ []) : Settled (x :: s) := by
  rcases hx with hx | hx
  · exact Settled.append (s := [x]) (by simpa [Settled] using hx) hs
  · intro y hy
    rw [List.getLast?_cons_of_ne_nil hx] at hy
    exact hs y hy

theorem settled_singleton {x : Lexeme} (h : x.announcesText = false) : Settled [x] := by
  simpa [Settled] using h

theorem settled_word {word : Word} {role : Role} (h : word.role = role)
    (hrole : role ≠ .unary .text) : (Lexeme.symbol word).announcesText = false := by
  simpa [Lexeme.announcesText, h] using hrole

theorem settled_closing {opening : Word} {role : Role} {closing : Option (WordOf role)}
    (h : Notice.ofGroup opening closing = []) (hrole : role ≠ .unary .text) :
    Settled (Word.closingYield closing) := by
  cases closing with
  | none => cases h
  | some word => exact settled_singleton (settled_word word.2 hrole)

mutual

theorem Operand.settled : (operand : Operand) → operand.notices = [] → Settled operand.yield
  | .number _, _ => settled_singleton rfl
  | .text _, _ => settled_singleton rfl
  | .character _, _ => settled_singleton rfl
  | .leaf word role, _ => by
    refine settled_singleton (settled_word rfl ?_)
    intro h
    rw [h] at role
    cases role
  | .keyword word role, _ => settled_singleton (settled_word role nofun)
  | .strayClosing _ _, hn => by cases hn
  | .beyondLimit _ _, hn => by cases hn
  | .group _ role body _, hn => by
    obtain ⟨hbody, hclosing⟩ := List.append_eq_nil_iff.1 hn
    exact ((Term.settledList body hbody).append (settled_closing hclosing nofun)).cons
      (.inl (settled_word role nofun))
  | .loneBar _ role, _ => settled_singleton (settled_word role nofun)
  | .bars _ role body _, hn => by
    obtain ⟨hbody, hclosing⟩ := List.append_eq_nil_iff.1 hn
    exact ((Term.settledList body hbody).append (settled_closing hclosing nofun)).cons
      (.inl (settled_word role nofun))
  | .function name role scripts argument, hn => by
    obtain ⟨hscripts, hargument⟩ := List.append_eq_nil_iff.1 hn
    exact ((Scripts.settled scripts hscripts).append (Operand.settled argument hargument)).cons
      (.inl (settled_word role nofun))
  | .functionAlone _ _ _, hn => by cases (List.append_eq_nil_iff.1 hn).2
  | .noArgument _ _, hn => by cases hn
  | .verbatim _ _ body, _ => (settled_singleton rfl).cons (.inr (List.cons_ne_nil _ _))
  | .unary _ _ _ argument, hn => (Operand.settled argument hn).cons (.inr argument.yield_ne_nil)
  | .noSecond _ _ _ _, hn => by cases (List.append_eq_nil_iff.1 hn).2
  | .binary _ _ role first second, hn => by
    obtain ⟨hfirst, hsecond⟩ := List.append_eq_nil_iff.1 hn
    exact ((Operand.settled first hfirst).append (Operand.settled second hsecond)).cons
      (.inl (settled_word role nofun))

theorem Scripts.settled : (scripts : Scripts) → scripts.notices = [] → Settled scripts.yield
  | .done _, _ => nofun
  | .cons _ operand more, hn => by
    obtain ⟨hoperand, hmore⟩ := List.append_eq_nil_iff.1 hn
    have hsettled := (Operand.settled operand hoperand).append (Scripts.settled more hmore)
    exact hsettled.cons (.inr (List.append_ne_nil_of_left_ne_nil operand.yield_ne_nil _))

theorem Term.settled : (term : Term) → term.notices = [] → Settled term.yield
  | .scripted base scripts, hn => by
    obtain ⟨hbase, hscripts⟩ := List.append_eq_nil_iff.1 hn
    exact (Operand.settled base hbase).append (Scripts.settled scripts hscripts)
  | .noDenominator _ _, hn => by
    cases (List.append_eq_nil_iff.1 (List.append_eq_nil_iff.1 hn).2).2
  | .fraction base scripts base' scripts', hn => by
    obtain ⟨hbase, hn⟩ := List.append_eq_nil_iff.1 hn
    obtain ⟨hscripts, hn⟩ := List.append_eq_nil_iff.1 hn
    obtain ⟨hbase', hscripts'⟩ := List.append_eq_nil_iff.1 hn
    have hdenominator := (Operand.settled base' hbase').append (Scripts.settled scripts' hscripts')
    exact (Operand.settled base hbase).append
      ((Scripts.settled scripts hscripts).append (hdenominator.cons (.inl rfl)))

theorem Term.settledList : (terms : List Term) → Term.noticesOfList terms = [] →
    Settled (Term.yieldOfList terms)
  | [], _ => nofun
  | term :: terms, hn => by
    obtain ⟨hterm, hterms⟩ := List.append_eq_nil_iff.1 hn
    exact (Term.settled term hterm).append (Term.settledList terms hterms)

end

/-! ## The next lexeme -/

/-- The lexeme can belong to what stands before it: a mark between operands, or a minus sign with
digits after it. -/
def Lexeme.Continues (x : Lexeme) : Prop :=
  x.symbol?.isSome ∧ x.raw ∈ ["/", "_", "^"] ∨ x.kind = .number ∧ x.raw.toList.head? = some '-'

theorem Lexeme.separate {x : Lexeme} (h : ¬ x.Continues) :
    x.marker? = none ∧ x ≠ .symbol .slash := by
  constructor
  · cases hmarker : x.marker? with
    | none => rfl
    | some m =>
      rw [eq_of_marker? hmarker] at h
      exact absurd (.inl (by cases m <;> decide)) h
  · rintro rfl
    exact h (.inl (by decide))

theorem Lexeme.negative_of_continues {n : Numeral} (h : ¬ (Lexeme.number n).Continues) :
    n.negative = false := by
  cases hnegative : n.negative with
  | false => rfl
  | true => exact absurd (.inr ⟨rfl, by simp [raw, Numeral.raw, hnegative]⟩) h

/-! ## Two inputs -/

theorem textAnnounced_contextAfter {s : List Lexeme} (h : Settled s) :
    (Scan.contextAfter .start s).textAnnounced = false := by
  rcases List.eq_nil_or_concat s with rfl | ⟨s, x, rfl⟩
  · rfl
  · rw [Scan.contextAfter, List.concat_eq_append, List.foldl_append]
    exact h x (by simp)

def body (settings : Settings) (input : String) : List Node :=
  (compile settings input).children.flatMap (·.children)

theorem body_eq (settings : Settings) (input : String) :
    body settings input = Formula.nodes (Formula.ofInput input) := by
  simp [body, compile, Settings.assemble]

theorem Term.fragments_append (terms more : List Term) :
    Term.fragments (terms ++ more) = Term.fragments terms ++ Term.fragments more := by
  induction terms with
  | nil => rfl
  | cons term terms ih => rw [List.cons_append, Term.fragments, Term.fragments, ih]; rfl

theorem Formula.nodes_append (formula more : List Term) :
    Formula.nodes (formula ++ more) = Formula.nodes formula ++ Formula.nodes more := by
  rw [Formula.nodes, Term.fragments_append, Fragment.nodesOfList_append]
  rfl

section

variable {a b : String}

theorem lexemes_append (hfaultless : notices a = [])
    (hterminated : ∀ token ∈ tokenize a, token.IsTerminated)
    (hnext : ∀ x ∈ (lexemes b).head?, ¬ x.Continues) :
    lexemes (a ++ " " ++ b) = lexemes a ++ lexemes b := by
  have hsettled : Settled (lexemes a) := by
    have h := Term.settledList _ hfaultless
    rwa [Formula.ofInput, Formula.yieldOfList_parse] at h
  exact lexemes_append_of_terminated hterminated (textAnnounced_contextAfter hsettled)
    fun n hn => Lexeme.negative_of_continues (hnext _ hn)

/-- What follows a formula without fault has the markup that it has on its own, unless its first
lexeme belongs to the formula. -/
theorem body_append (settings : Settings) (hfaultless : notices a = [])
    (hbars : ∀ x ∈ lexemes a, x.role? ≠ some .leftRight)
    (hterminated : ∀ token ∈ tokenize a, token.IsTerminated)
    (hnext : ∀ x ∈ (lexemes b).head?, ¬ x.Continues) :
    body settings (a ++ " " ++ b) = body settings a ++ body settings b := by
  have hparse : Formula.ofInput (a ++ " " ++ b) = Formula.ofInput a ++ Formula.ofInput b := by
    rw [Formula.ofInput, lexemes_append hfaultless hterminated hnext]
    exact Formula.parse_append hfaultless hbars fun x hx => Lexeme.separate (hnext x hx)
  rw [body_eq, body_eq, body_eq, hparse, Formula.nodes_append]

/-- Nothing is asked of what follows but its first lexeme. -/
theorem body_append_open_group :
    notices "sqrt x \"if\"" = [] ∧
      body .default ("sqrt x \"if\"" ++ " " ++ "(y/") =
        body .default "sqrt x \"if\"" ++ body .default "(y/" := by
  have htokens : tokenize "sqrt x \"if\"" =
      [⟨.symbol ⟨"sqrt", .squareRoot "sqrt", by decide +kernel⟩, 0, 4⟩, ⟨.character 'x', 5, 6⟩,
        ⟨.text "if", 7, 11⟩] := by decide +kernel
  have hfaultless : notices "sqrt x \"if\"" = [] := by
    rw [notices, Formula.ofInput, lexemes, htokens]
    decide +kernel
  have hbars : ∀ x ∈ lexemes "sqrt x \"if\"", x.role? ≠ some .leftRight := by
    rw [lexemes, htokens]
    decide
  have hterminated : ∀ token ∈ tokenize "sqrt x \"if\"", token.IsTerminated := by
    rw [htokens]
    simp only [Token.IsTerminated, List.forall_mem_cons]
    exact ⟨by simp, by simp, by rintro body ⟨⟩; decide, by simp⟩
  have hnext : ∀ x ∈ (lexemes "(y/").head?, ¬ x.Continues := by
    unfold Lexeme.Continues
    decide +kernel
  exact ⟨hfaultless, body_append .default hfaultless hbars hterminated hnext⟩

end

end FormulaMarkup
