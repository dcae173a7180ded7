import FormulaMarkup.Proofs.Operands

/-!
# Formulas with commas between them

Formulas without fault that stand between commas are read as they are on their own, in a group too.
-/

namespace FormulaMarkup.Formula

variable {room : Nat} {inBar inGroup : Bool} {s t left left' : List Lexeme}
  {terms terms' : List Term}

theorem ReadsBody.unique (h : ReadsBody room inBar inGroup s terms left)
    (h' : ReadsBody room inBar inGroup s terms' left') : terms = terms' ∧ left = left' := by
  obtain ⟨hterms, hleft⟩ := h.gives
  obtain ⟨hterms', hleft'⟩ := h'.gives
  exact ⟨hterms.symm.trans hterms', hleft.symm.trans hleft'⟩

theorem Separate.append (hs : Separate s) (ht : Separate t) : Separate (s ++ t) := by
  cases s with
  | nil => exact ht
  | cons x s => exact hs

/-! ## In a group -/

theorem role?_of_closes {x : Lexeme} (h : closes false x = true) : x.role? = some .closeBracket := by
  unfold closes at h
  split at h
  · next role => exact role
  · cases h
  · cases h

/-- Without fault an operand begins with nothing that closes a group. -/
theorem ReadsOperand.starts {operand : Operand} (h : ReadsOperand room false s operand left)
    (hn : operand.notices = []) : atOperandEnd false s = false := by
  obtain ⟨x, rest, rfl, -⟩ := h.gives
  cases hcloses : closes false x with
  | false => exact hcloses
  | true =>
    have role := role?_of_closes hcloses
    cases x with
    | symbol word =>
      obtain ⟨rfl, -⟩ := h.unique (.strayClosing word (Option.some.inj role))
      cases hn
    | _ => cases role

theorem ReadsTerm.starts {term : Term} (h : ReadsTerm room false s term left)
    (hn : term.notices = []) : atOperandEnd false s = false := by
  cases h with
  | scripted first _ _ => exact first.starts (List.append_eq_nil_iff.1 hn).1
  | noDenominator first _ _ => exact first.starts (List.append_eq_nil_iff.1 hn).1
  | fraction first _ _ _ _ => exact first.starts (List.append_eq_nil_iff.1 hn).1

/-- A formula without fault is read in a group, and more of the content after it. -/
theorem ReadsBody.concat_inside (ht : Separate t) (hmore : ReadsBody room false true t terms' left) :
    {s l : List Lexeme} → {terms : List Term} → ReadsBody room false false s terms l →
      Term.noticesOfList terms = [] → NoBars (Term.yieldOfList terms) →
      ReadsBody room false true (s ++ t) (terms ++ terms') left
  | s, _, _, .nil ends, _, _ => by
    have hempty : ReadsBody room false false s [] s := .nil ends
    rw [hempty.left_eq_nil]
    exact hmore
  | _, _, _, .cons goes first rest, hn, hb => by
    obtain ⟨hfirst, hrest⟩ := List.append_eq_nil_iff.1 hn
    obtain ⟨hb, hb'⟩ := NoBars.append.1 hb
    have hstarts := atOperandEnd_append (first.starts hfirst) t
    exact .cons (by rw [bodyEnds_true]; exact hstarts) (first.append ht hfirst hb)
      (ReadsBody.concat_inside ht hmore rest hrest hb')

/-! ## Parts of a body -/

/-- The lexemes are read as the terms in front of whatever does not go on with them. -/
def ReadsBefore (room : Nat) (inGroup : Bool) (s : List Lexeme) (terms : List Term) : Prop :=
  ∀ t terms' left, Separate t → ReadsBody room false inGroup t terms' left →
    ReadsBody room false inGroup (s ++ t) (terms ++ terms') left

theorem readsBefore_parse (hn : Term.noticesOfList (parse s) = []) (hb : NoBars s) :
    ReadsBefore maxDepth true s (parse s) := by
  intro t terms' left ht hmore
  exact ReadsBody.concat_inside ht hmore (parse_reads s) hn (by rwa [yieldOfList_parse])

def commaTerm : Term := .scripted (.leaf .comma rfl) (.done .complete)

theorem separate_comma (s : List Lexeme) : Separate (.symbol .comma :: s) := by
  rintro x ⟨⟩
  exact ⟨by decide, by decide⟩

theorem ReadsBody.comma (ht : Separate t) (hmore : ReadsBody room false inGroup t terms' left) :
    ReadsBody room false inGroup (.symbol .comma :: t) (commaTerm :: terms') left := by
  have hgoes : bodyEnds false inGroup (.symbol .comma :: t) = false := by cases inGroup <;> rfl
  exact .cons hgoes (.scripted (.leaf .comma rfl) (.complete fun x hx => (ht x hx).1)
    fun hslash => (ht _ hslash).2 rfl) hmore

/-- Parts with commas between them. -/
theorem ReadsBefore.join {parts : List (List Lexeme × List Term)}
    (h : ∀ part ∈ parts, ReadsBefore room inGroup part.1 part.2 ∧ Separate part.1) :
    ReadsBefore room inGroup ([.symbol .comma].intercalate (parts.map Prod.fst))
        ([commaTerm].intercalate (parts.map Prod.snd)) ∧
      Separate ([.symbol .comma].intercalate (parts.map Prod.fst)) := by
  induction parts with
  | nil => exact ⟨fun t terms' left _ hmore => hmore, nofun⟩
  | cons part parts ih =>
    obtain ⟨⟨hreads, hpart⟩, h⟩ := List.forall_mem_cons.1 h
    cases parts with
    | nil => simpa using ⟨hreads, hpart⟩
    | cons next parts =>
      obtain ⟨hmore, hseparate⟩ := ih h
      simp only [List.map_cons, List.intercalate_cons_cons, List.append_assoc,
        List.singleton_append] at hmore hseparate ⊢
      refine ⟨fun t terms' left ht hbody => ?_, hpart.append (separate_comma _)⟩
      have hrest := ReadsBody.comma (hseparate.append ht) (hmore t terms' left ht hbody)
      simpa using hreads _ _ left (separate_comma _) hrest

/-- A group whose content is read in front of the bracket that closes it. -/
theorem ReadsBefore.group (h : ReadsBefore room true s terms) (opening : WordOf .openBracket)
    (closing : WordOf .closeBracket) :
    ReadsBefore (room + 1) inGroup (.symbol opening.1 :: (s ++ [.symbol closing.1]))
      [.scripted (closedGroup opening terms closing) (.done .complete)] := by
  intro t terms' left ht hmore
  have hends : bodyEnds false true (.symbol closing.1 :: t) = true := by
    simp [bodyEnds, closes, Lexeme.role?_symbol, closing.2]
  have hgoes : bodyEnds false inGroup
      (.symbol opening.1 :: (s ++ .symbol closing.1 :: t)) = false := by
    simp [bodyEnds, closes, Lexeme.role?_symbol, opening.2]
  have hcontent := h (.symbol closing.1 :: t) [] _ (separate_of_role (by simp [closing.2]) t)
    (.nil hends)
  rw [List.append_nil] at hcontent
  rw [List.cons_append, List.append_assoc, List.singleton_append]
  exact .cons hgoes (.scripted (.group opening.1 opening.2 hcontent (.closed closing t))
    (.complete fun x hx => (ht x hx).1) fun hslash => (ht _ hslash).2 rfl) hmore

theorem separate_opening (opening : WordOf .openBracket) (s : List Lexeme) :
    Separate (.symbol opening.1 :: s) :=
  separate_of_role (by simp [opening.2]) s

/-- Within the limits a formula is what is read where more levels may open. -/
theorem parse_of_deeper {formula : List Term} (hn : WithinLimits (Term.noticesOfList (parse s)))
    (h : ReadsBefore (maxDepth + 2) false s formula) : parse s = formula := by
  have hideal := h [] [] [] nofun (.nil rfl)
  rw [List.append_nil, List.append_nil] at hideal
  exact (((parse_reads s).deepen hn).deepen hn |>.unique hideal).1

end FormulaMarkup.Formula
