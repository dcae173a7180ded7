import FormulaMarkup.Proofs.Concatenation
import FormulaMarkup.Proofs.Construction
import FormulaMarkup.Proofs.Grammar.Surroundings

/-!
# Groups as operands

A closed group is read in the same way wherever it is an operand, and there it loses its brackets.
So does a group around a table, although the table stands for a matrix only with its brackets.
-/

namespace FormulaMarkup

namespace Formula

/-! ## One derivation -/

theorem ReadsOperand.unique {room inBar s value value' left left'}
    (h : ReadsOperand room inBar s value left) (h' : ReadsOperand room inBar s value' left') :
    value = value' ∧ left = left' := by
  obtain ⟨x, rest, rfl, hvalue, hleft⟩ := h.gives
  obtain ⟨x', rest', heq, hvalue', hleft'⟩ := h'.gives
  cases heq
  exact ⟨hvalue.symm.trans hvalue', hleft.symm.trans hleft'⟩

theorem exists_readsOperand (room : Nat) {inBar : Bool} {s : List Lexeme}
    (h : atOperandEnd inBar s = false) :
    ∃ operand left, ReadsOperand room inBar s operand left := by
  cases s with
  | nil => cases h
  | cons x rest => exact ⟨_, _, parseOperand_reads room inBar x rest⟩

theorem ReadsScripts.nil {room inBar slots} :
    ReadsScripts room inBar slots [] (.done .complete) [] := by
  refine .complete fun x hx => ?_
  cases hx

/-- Within the limits an operand is read as it is where more levels may open. -/
theorem ReadsOperand.of_deeper {room inBar s operand operand' left left'}
    (h : ReadsOperand room inBar s operand left) (hn : WithinLimits operand.notices)
    (h' : ReadsOperand (room + 1) inBar s operand' left') :
    ReadsOperand room inBar s operand' left' := by
  obtain ⟨rfl, rfl⟩ := (h.deepen hn).unique h'
  exact h

/-- The notices on the first operand of a formula are among those on the formula. -/
theorem ReadsBody.withinLimits_first {room inBar inGroup s terms operand left left'}
    (h : ReadsBody room inBar inGroup s terms left) (hs : bodyEnds inBar inGroup s = false)
    (hn : WithinLimits (Term.noticesOfList terms)) (h' : ReadsOperand room inBar s operand left') :
    WithinLimits operand.notices := by
  cases h with
  | nil ends =>
    rw [ends] at hs
    cases hs
  | cons _ first _ =>
    have hterm := (WithinLimits.append.1 hn).1
    cases first with
    | scripted first _ _ =>
      obtain ⟨rfl, rfl⟩ := first.unique h'
      exact (WithinLimits.append.1 hterm).1
    | noDenominator first _ _ =>
      obtain ⟨rfl, rfl⟩ := first.unique h'
      exact (WithinLimits.append.1 hterm).1
    | fraction first _ _ _ _ =>
      obtain ⟨rfl, rfl⟩ := first.unique h'
      exact (WithinLimits.append.1 hterm).1

/-! ## Groups -/

/-- The brackets of a formula that is one closed group. -/
def soleGroup? : List Term → Option (Symbol × Symbol)
  | [.scripted (.group opening _ _ (some closing)) (.done .complete)] =>
    some (opening.symbol, closing.1.symbol)
  | _ => none

def closedGroup (opening : WordOf .openBracket) (content : List Term)
    (closing : WordOf .closeBracket) : Operand :=
  .group opening.1 opening.2 content (some closing)

/-- The lexemes are one closed group. -/
def IsGroup (s : List Lexeme) (opening : WordOf .openBracket) (content : List Term)
    (closing : WordOf .closeBracket) : Prop :=
  ReadsOperand maxDepth false s (closedGroup opening content closing) []

theorem exists_isGroup {s : List Lexeme} {o c : Symbol} (h : soleGroup? (parse s) = some (o, c)) :
    ∃ opening content closing, o = opening.1.symbol ∧ c = closing.1.symbol ∧
      IsGroup s opening content closing := by
  have hreads := parse_reads s
  generalize parse s = formula at h hreads
  unfold soleGroup? at h
  split at h
  · next opening role content closing =>
    cases h
    refine ⟨⟨opening, role⟩, content, closing, rfl, rfl, ?_⟩
    cases hreads with
    | cons _ first rest =>
      cases rest
      cases first with
      | scripted first second _ =>
        cases second
        exact first
  · cases h

variable {s : List Lexeme} {opening : WordOf .openBracket} {content : List Term}
  {closing : WordOf .closeBracket} {c : Char} {word : Word}

theorem noBars_character (c : Char) : NoBars [.character c] :=
  List.forall_mem_singleton.2 (by simp [Lexeme.role?, Lexeme.symbol?])

/-- A single operand without scripts is a formula. -/
theorem parse_operand {operand : Operand} (hs : s ≠ [])
    (h : ReadsOperand maxDepth false s operand []) :
    parse s = [.scripted operand (.done .complete)] := by
  refine parse_eq_iff.2 (.cons ?_ (.scripted h .nil (by simp)) (.nil rfl))
  cases s with
  | nil => exact absurd rfl hs
  | cons x s => rfl

namespace IsGroup

theorem eq (h : IsGroup s opening content closing) :
    s = .symbol opening.1 :: (Term.yieldOfList content ++ [.symbol closing.1]) := by
  have hyield := h.yield_append
  rw [List.append_nil] at hyield
  exact hyield.symm

theorem starts (h : IsGroup s opening content closing) (t : List Lexeme) :
    atOperandEnd false (s ++ t) = false := by
  rw [h.eq]
  simp [closes, Lexeme.role?_symbol, opening.2]

theorem starts_alone (h : IsGroup s opening content closing) : atOperandEnd false s = false := by
  have hstarts := h.starts []
  rwa [List.append_nil] at hstarts

theorem head?_ne_number (h : IsGroup s opening content closing) :
    ∀ n, s.head? = some (.number n) → n.negative = false := by
  intro n hn
  rw [h.eq] at hn
  cases hn

theorem parse_self (h : IsGroup s opening content closing) :
    parse s = [.scripted (closedGroup opening content closing) (.done .complete)] :=
  parse_operand (by simp [h.eq]) h

theorem parse_numerator (h : IsGroup s opening content closing) :
    parse (s ++ [.symbol .slash, .character c]) =
      [.fraction (closedGroup opening content closing) (.done .complete) (.character c)
        (.done .complete)] := by
  have hbars : NoBars [.symbol .slash, .character c] :=
    NoBars.cons.2 ⟨by decide, noBars_character c⟩
  have hnumerator := h.group_append hbars
  refine parse_eq_iff.2 (.cons ?_ (.fraction hnumerator (.complete ?_) rfl (.character c)
    .nil) (.nil rfl))
  · rw [h.eq]
    rfl
  · rintro x ⟨⟩
    decide

theorem parse_denominator (h : IsGroup s opening content closing) :
    parse (.character c :: .symbol .slash :: s) =
      [.fraction (.character c) (.done .complete) (closedGroup opening content closing)
        (.done .complete)] := by
  refine parse_eq_iff.2 (.cons rfl (.fraction (.character c) (.complete ?_) h.starts_alone h
    .nil) (.nil rfl))
  rintro x ⟨⟩
  decide

theorem parse_script (h : IsGroup s opening content closing) (marker : Marker) :
    parse (.character c :: .symbol marker.word :: s) =
      [.scripted (.character c)
        (.cons marker (closedGroup opening content closing) (.done .complete))] := by
  have hfree : (Slots.empty.isTaken marker && maxDepth ≤ Slots.empty.levels + 1) = false := by
    cases marker <;> rfl
  exact parse_eq_iff.2 (.cons rfl (.scripted (.character c)
    (.cons marker h.starts_alone hfree h .nil) (by simp)) (.nil rfl))

theorem parse_unary {kind : UnaryKind} (h : IsGroup s opening content closing)
    (role : word.role = .unary kind) (hkind : kind ≠ .text)
    (hn : WithinLimits (Term.noticesOfList (parse (.symbol word :: s)))) :
    parse (.symbol word :: s) =
      [.scripted (.unary word kind role (closedGroup opening content closing))
        (.done .complete)] := by
  have hmarkup : kind = .text → ∀ body, s.head? ≠ some (.text body) :=
    fun htext => absurd htext hkind
  obtain ⟨argument, left, hargument⟩ := exists_readsOperand (maxDepth - 1) h.starts_alone
  have hlimits := (parse_reads _).withinLimits_first rfl hn
    (.unary word kind role h.starts_alone hmarkup hargument)
  have hgroup := hargument.of_deeper hlimits h
  exact parse_operand (List.cons_ne_nil _ _)
    (.unary word kind role h.starts_alone hmarkup hgroup)

theorem parse_function (h : IsGroup s opening content closing) (role : word.role = .function)
    (hn : WithinLimits (Term.noticesOfList (parse (.symbol word :: s)))) :
    parse (.symbol word :: s) =
      [.scripted (.function word role (.done .complete) (closedGroup opening content closing))
        (.done .complete)] := by
  have hscripts : ReadsScripts (maxDepth - 1) false .empty s (.done .complete) s := by
    refine .complete fun x hx => ?_
    rw [h.eq] at hx
    cases hx
    exact marker?_of_role (by simp [opening.2])
  obtain ⟨argument, left, hargument⟩ := exists_readsOperand (maxDepth - 1) h.starts_alone
  have hlimits := (parse_reads _).withinLimits_first rfl hn
    (.function word role hscripts h.starts_alone hargument)
  have hgroup := hargument.of_deeper (WithinLimits.append.1 hlimits).2 h
  exact parse_operand (List.cons_ne_nil _ _)
    (.function word role hscripts h.starts_alone hgroup)

theorem parse_first {order : ArgOrder} (h : IsGroup s opening content closing)
    (role : word.role = .binary order)
    (hn : WithinLimits (Term.noticesOfList (parse (.symbol word :: (s ++ [.character c]))))) :
    parse (.symbol word :: (s ++ [.character c])) =
      [.scripted (.binary word order role (closedGroup opening content closing) (.character c))
        (.done .complete)] := by
  have hstarts := h.starts [.character c]
  have hgroup := h.group_append (noBars_character c)
  obtain ⟨argument, left, hargument⟩ := exists_readsOperand (maxDepth - 1) hstarts
  -- With less room the argument is read up to some place. Whether a second argument follows there
  -- or not, the notices on the first are among those on the formula.
  have hlimits : WithinLimits argument.notices := by
    cases hleft : atOperandEnd false left with
    | true =>
      have hoperand := (parse_reads _).withinLimits_first rfl hn
        (.noSecond word order role hstarts hargument hleft)
      exact (WithinLimits.append.1 hoperand).1
    | false =>
      obtain ⟨second, left', hsecond⟩ := exists_readsOperand (maxDepth - 1) hleft
      have hoperand := (parse_reads _).withinLimits_first rfl hn
        (.binary word order role hstarts hargument hleft hsecond)
      exact (WithinLimits.append.1 hoperand).1
  have hfirst := hargument.of_deeper hlimits hgroup
  exact parse_operand (List.cons_ne_nil _ _)
    (.binary word order role hstarts hfirst rfl (.character c))

theorem parse_second {order : ArgOrder} (h : IsGroup s opening content closing)
    (role : word.role = .binary order)
    (hn : WithinLimits (Term.noticesOfList (parse (.symbol word :: .character c :: s)))) :
    parse (.symbol word :: .character c :: s) =
      [.scripted (.binary word order role (.character c) (closedGroup opening content closing))
        (.done .complete)] := by
  obtain ⟨argument, left, hargument⟩ := exists_readsOperand (maxDepth - 1) h.starts_alone
  have hlimits := (parse_reads _).withinLimits_first rfl hn
    (.binary word order role rfl (.character c) h.starts_alone hargument)
  have hgroup := hargument.of_deeper hlimits h
  exact parse_operand (List.cons_ne_nil _ _)
    (.binary word order role rfl (.character c) h.starts_alone hgroup)

end IsGroup

end Formula

/-! ## The markup of an operand -/

section

open Formula

variable {settings : Settings} {m f : String} {opening : WordOf .openBracket}
  {content : List Term} {closing : WordOf .closeBracket} {c : Char} {word : Word}

/-- The markup between the brackets of a closed group. -/
def Formula.contentNodes (content : List Term) : List Node :=
  Fragment.nodesOfList (Table.resolve (Term.fragments content))

theorem body_self (h : IsGroup (lexemes m) opening content closing) :
    body settings m = [.row (Fragment.bracketNodes opening.1.symbol ++
      (contentNodes content ++ Fragment.bracketNodes closing.1.symbol))] := by
  rw [body_eq, ofInput, h.parse_self]
  rfl

/-- After a group stands what follows it. -/
theorem lexemes_after_group (h : IsGroup (lexemes m) opening content closing) {b : String}
    (hb : ∀ n, (lexemes b).head? = some (.number n) → n.negative = false) :
    lexemes (m ++ " " ++ b) = lexemes m ++ lexemes b := by
  have hlast : lexemes m =
      (.symbol opening.1 :: Term.yieldOfList content) ++ [.symbol closing.1] := h.eq
  exact lexemes_append_of_last hlast (by simp) (by simp [Lexeme.announcesText, closing.2]) hb

/-- In front of a group it is read whatever announces no text. -/
theorem lexemes_before_group (h : IsGroup (lexemes m) opening content closing) {a : String}
    {xs : List Lexeme} {x : Lexeme} (ha : lexemes a = xs ++ [x]) (htext : ∀ body, x ≠ .text body)
    (hannounces : x.announcesText = false) :
    lexemes (a ++ " " ++ m) = lexemes a ++ lexemes m :=
  lexemes_append_of_last ha htext hannounces h.head?_ne_number

theorem lexemes_after_word (hf : lexemes f = [.symbol word])
    (hannounces : (Lexeme.symbol word).announcesText = false) {b : String}
    (hb : ∀ n, (lexemes b).head? = some (.number n) → n.negative = false) :
    lexemes (f ++ " " ++ b) = .symbol word :: lexemes b := by
  have hlast : lexemes f = [] ++ [.symbol word] := hf
  rw [lexemes_append_of_last hlast (by simp) hannounces hb, hf]
  rfl

theorem body_numerator (h : IsGroup (lexemes m) opening content closing) :
    body settings (m ++ " / y") =
      [.container .mfrac [.singleOrRow (contentNodes content), .leaf .mi "y"]] := by
  have hright : lexemes "/ y" = [.symbol .slash, .character 'y'] := by decide +kernel
  have hinput : m ++ " / y" = m ++ " " ++ "/ y" := by
    rw [String.append_assoc]
    rfl
  rw [body_eq, ofInput, hinput, lexemes_after_group h (by simp [hright]), hright,
    h.parse_numerator]
  rfl

theorem body_denominator (h : IsGroup (lexemes m) opening content closing) :
    body settings ("y / " ++ m) =
      [.container .mfrac [.leaf .mi "y", .singleOrRow (contentNodes content)]] := by
  have hleft : lexemes "y /" = [.character 'y'] ++ [.symbol .slash] := by decide +kernel
  have hinput : "y / " ++ m = "y /" ++ " " ++ m := rfl
  rw [body_eq, ofInput, hinput, lexemes_before_group h hleft (by simp) (by decide), hleft]
  exact congrArg nodes h.parse_denominator

theorem body_script (h : IsGroup (lexemes m) opening content closing) (marker : Marker)
    {a : String} (ha : lexemes a = [.character c] ++ [.symbol marker.word]) :
    body settings (a ++ " " ++ m) =
      [(ScriptLevel.one marker (.singleOrRow (contentNodes content))).attach false
        (.leaf .mi c.toString)] := by
  have hannounces : (Lexeme.symbol marker.word).announcesText = false := by cases marker <;> decide
  rw [body_eq, ofInput, lexemes_before_group h ha (by simp) hannounces, ha]
  exact congrArg nodes (h.parse_script marker)

theorem body_subscript (h : IsGroup (lexemes m) opening content closing) :
    body settings ("y _ " ++ m) =
      [.container .msub [.leaf .mi "y", .singleOrRow (contentNodes content)]] := by
  have hleft : lexemes "y _" = [.character 'y'] ++ [.symbol Marker.sub.word] := by decide +kernel
  have hinput : "y _ " ++ m = "y _" ++ " " ++ m := rfl
  rw [hinput]
  exact body_script h .sub hleft

theorem body_superscript (h : IsGroup (lexemes m) opening content closing) :
    body settings ("y ^ " ++ m) =
      [.container .msup [.leaf .mi "y", .singleOrRow (contentNodes content)]] := by
  have hleft : lexemes "y ^" = [.character 'y'] ++ [.symbol Marker.sup.word] := by decide +kernel
  have hinput : "y ^ " ++ m = "y ^" ++ " " ++ m := rfl
  rw [hinput]
  exact body_script h .sup hleft

theorem body_unary {kind : UnaryKind} (h : IsGroup (lexemes m) opening content closing)
    (hf : lexemes f = [.symbol word]) (role : word.role = .unary kind) (hkind : kind ≠ .text)
    (hn : WithinLimits (notices (f ++ " " ++ m))) :
    body settings (f ++ " " ++ m) =
      [word.unaryNode kind (.singleOrRow (contentNodes content))] := by
  have hannounces : (Lexeme.symbol word).announcesText = false := by
    simpa [Lexeme.announcesText, role] using hkind
  have hlexemes := lexemes_after_word hf hannounces h.head?_ne_number
  rw [notices, ofInput, hlexemes] at hn
  rw [body_eq, ofInput, hlexemes]
  exact congrArg nodes (h.parse_unary role hkind hn)

/-- The argument of a named function keeps its brackets. -/
theorem body_function (h : IsGroup (lexemes m) opening content closing)
    (hf : lexemes f = [.symbol word]) (role : word.role = .function)
    (hn : WithinLimits (notices (f ++ " " ++ m))) :
    body settings (f ++ " " ++ m) =
      [.row (.leaf word.symbol.element word.symbol.output :: body settings m)] := by
  have hannounces : (Lexeme.symbol word).announcesText = false := by
    simp [Lexeme.announcesText, role]
  have hlexemes := lexemes_after_word hf hannounces h.head?_ne_number
  rw [notices, ofInput, hlexemes] at hn
  rw [body_self h, body_eq, ofInput, hlexemes]
  exact congrArg nodes (h.parse_function role hn)

theorem announcesText_of_binary {order : ArgOrder} (role : word.role = .binary order) :
    (Lexeme.symbol word).announcesText = false := by
  simp [Lexeme.announcesText, role]

theorem lexemes_letter : lexemes "y" = [.character 'y'] := by decide +kernel

theorem append_letter (a : String) : a ++ " y" = a ++ " " ++ "y" := by
  rw [String.append_assoc]
  rfl

theorem append_letter_space (a : String) : a ++ " y " = a ++ " " ++ "y" ++ " " := by
  rw [String.append_assoc, String.append_assoc]
  rfl

theorem body_first {order : ArgOrder} (h : IsGroup (lexemes m) opening content closing)
    (hf : lexemes f = [.symbol word]) (role : word.role = .binary order)
    (hn : WithinLimits (notices (f ++ " " ++ m ++ " y"))) :
    body settings (f ++ " " ++ m ++ " y") =
      [word.binaryNode order (.singleOrRow (contentNodes content)) (.leaf .mi "y")] := by
  have hbefore : lexemes (f ++ " " ++ m) = .symbol word :: lexemes m :=
    lexemes_after_word hf (announcesText_of_binary role) h.head?_ne_number
  have hlast : lexemes (f ++ " " ++ m) =
      (.symbol word :: .symbol opening.1 :: Term.yieldOfList content) ++ [.symbol closing.1] := by
    rw [hbefore, h.eq]
    rfl
  have hlexemes : lexemes (f ++ " " ++ m ++ " y") =
      .symbol word :: (lexemes m ++ [.character 'y']) := by
    rw [append_letter, lexemes_append_of_last hlast (by simp)
      (by simp [Lexeme.announcesText, closing.2]) (by simp [lexemes_letter]), lexemes_letter,
      hbefore]
    rfl
  rw [notices, ofInput, hlexemes] at hn
  rw [body_eq, ofInput, hlexemes]
  exact congrArg nodes (h.parse_first role hn)

theorem body_second {order : ArgOrder} (h : IsGroup (lexemes m) opening content closing)
    (hf : lexemes f = [.symbol word]) (role : word.role = .binary order)
    (hn : WithinLimits (notices (f ++ " y " ++ m))) :
    body settings (f ++ " y " ++ m) =
      [word.binaryNode order (.leaf .mi "y") (.singleOrRow (contentNodes content))] := by
  have hbefore : lexemes (f ++ " " ++ "y") = [.symbol word] ++ [.character 'y'] := by
    rw [lexemes_after_word hf (announcesText_of_binary role) (by simp [lexemes_letter]),
      lexemes_letter]
    rfl
  have hlexemes : lexemes (f ++ " y " ++ m) = .symbol word :: .character 'y' :: lexemes m := by
    rw [append_letter_space, lexemes_before_group h hbefore (by simp) rfl, hbefore]
    rfl
  rw [notices, ofInput, hlexemes] at hn
  rw [body_eq, ofInput, hlexemes]
  exact congrArg nodes (h.parse_second role hn)

/-- Brackets that show hide nothing of what they enclose. -/
theorem contentNodes_eq (h : IsGroup (lexemes m) opening content closing) {node : Node}
    (hbody : body settings m =
      [.row [.leaf .mo opening.1.symbol.output, node, .leaf .mo closing.1.symbol.output]]) :
    contentNodes content = [node] := by
  have hbuilt : ∀ child ∈ [.leaf .mo opening.1.symbol.output, node,
      .leaf .mo closing.1.symbol.output], child.Built := by
    have hrow := nodes_built (ofInput m)
    rw [← body_eq settings, hbody] at hrow
    exact Node.Built.row_iff.1 (hrow _ List.mem_cons_self)
  have hopening : opening.1.symbol.output ≠ "" := fun houtput =>
    (hbuilt _ List.mem_cons_self).text_ne_empty (by simp [Node.leaf]) (congrArg some houtput)
  have hclosing : closing.1.symbol.output ≠ "" := fun houtput =>
    (hbuilt _ (List.mem_cons_of_mem _ (List.mem_cons_of_mem _ List.mem_cons_self))).text_ne_empty
      (by simp [Node.leaf]) (congrArg some houtput)
  rw [body_self h, Fragment.bracketNodes, Fragment.bracketNodes, if_neg hopening,
    if_neg hclosing] at hbody
  injection hbody with hrow
  injection hrow with _ _ hchildren
  injection hchildren with _ hcontent
  have hends : contentNodes content ++ [_] = [node] ++ [_] := hcontent
  exact (List.append_inj' hends rfl).1

/-- A table that is an operand loses the brackets around it. Only a named function keeps them. -/
theorem table_as_operand {o c : Symbol} {attributes : Attributes} {rows : List Node}
    (hm : soleGroup? (ofInput m) = some (o, c))
    (hbody : body settings m =
      [.row [.leaf .mo o.output, ⟨.mtable, attributes, rows, none⟩, .leaf .mo c.output]]) :
    body settings (m ++ " / y") =
        [.container .mfrac [⟨.mtable, attributes, rows, none⟩, .leaf .mi "y"]] ∧
      body settings ("y / " ++ m) =
        [.container .mfrac [.leaf .mi "y", ⟨.mtable, attributes, rows, none⟩]] ∧
      body settings ("y _ " ++ m) =
        [.container .msub [.leaf .mi "y", ⟨.mtable, attributes, rows, none⟩]] ∧
      body settings ("y ^ " ++ m) =
        [.container .msup [.leaf .mi "y", ⟨.mtable, attributes, rows, none⟩]] ∧
      ∀ (f : String) (word : Word), lexemes f = [.symbol word] →
        (∀ kind, word.role = .unary kind → kind ≠ .text → WithinLimits (notices (f ++ " " ++ m)) →
          body settings (f ++ " " ++ m) =
            [word.unaryNode kind ⟨.mtable, attributes, rows, none⟩]) ∧
        (∀ order, word.role = .binary order → WithinLimits (notices (f ++ " " ++ m ++ " y")) →
          body settings (f ++ " " ++ m ++ " y") =
            [word.binaryNode order ⟨.mtable, attributes, rows, none⟩ (.leaf .mi "y")]) ∧
        (∀ order, word.role = .binary order → WithinLimits (notices (f ++ " y " ++ m)) →
          body settings (f ++ " y " ++ m) =
            [word.binaryNode order (.leaf .mi "y") ⟨.mtable, attributes, rows, none⟩]) ∧
        (word.role = .function → WithinLimits (notices (f ++ " " ++ m)) →
          body settings (f ++ " " ++ m) =
            [.row (.leaf word.symbol.element word.symbol.output :: body settings m)]) := by
  -- Nothing but its place between the brackets matters of the table.
  generalize (⟨.mtable, attributes, rows, none⟩ : Node) = table at hbody ⊢
  obtain ⟨opening, content, closing, rfl, rfl, h⟩ := exists_isGroup hm
  have htable : Node.singleOrRow (contentNodes content) = table := by
    rw [contentNodes_eq h hbody]
    rfl
  subst htable
  refine ⟨body_numerator h, body_denominator h, body_subscript h, body_superscript h,
    fun f word hf => ⟨?unary, ?first, ?second, ?function⟩⟩
  case unary =>
    intro kind role hkind hn
    exact body_unary h hf role hkind hn
  case first =>
    intro order role hn
    exact body_first h hf role hn
  case second =>
    intro order role hn
    exact body_second h hf role hn
  case function =>
    intro role hn
    exact body_function h hf role hn

/-- A table with one node in each row. -/
def columnNode (nodes : List Node) : Node :=
  .container .mtable (nodes.map fun node => .container .mtr [.container .mtd [node]])

/-- Alone the column stands between brackets, and not in a fraction or under a root. -/
theorem table_as_operand_column :
    soleGroup? (ofInput "((a),(b))") = some (.openBracket "(", .closeBracket ")") ∧
      body .default "((a),(b))" =
        [.row [.leaf .mo "(", columnNode [.leaf .mi "a", .leaf .mi "b"], .leaf .mo ")"]] ∧
      body .default ("((a),(b))" ++ " / y") =
        [.container .mfrac [columnNode [.leaf .mi "a", .leaf .mi "b"], .leaf .mi "y"]] ∧
      lexemes "sqrt" = [.symbol ⟨"sqrt", .squareRoot "sqrt", by decide +kernel⟩] ∧
      WithinLimits (notices ("sqrt" ++ " " ++ "((a),(b))")) ∧
      body .default ("sqrt" ++ " " ++ "((a),(b))") =
        [.container .msqrt [columnNode [.leaf .mi "a", .leaf .mi "b"]]] := by
  have hcolumn : lexemes "((a),(b))" =
      [.symbol ⟨"(", .openBracket "(", by decide +kernel⟩,
        .symbol ⟨"(", .openBracket "(", by decide +kernel⟩, .character 'a',
        .symbol ⟨")", .closeBracket ")", by decide +kernel⟩,
        .symbol ⟨",", .operator ",", by decide +kernel⟩,
        .symbol ⟨"(", .openBracket "(", by decide +kernel⟩, .character 'b',
        .symbol ⟨")", .closeBracket ")", by decide +kernel⟩,
        .symbol ⟨")", .closeBracket ")", by decide +kernel⟩] := by decide +kernel
  have hf : lexemes "sqrt" = [.symbol ⟨"sqrt", .squareRoot "sqrt", by decide +kernel⟩] := by
    decide +kernel
  have hm : soleGroup? (ofInput "((a),(b))") = some (.openBracket "(", .closeBracket ")") := by
    rw [ofInput, hcolumn]
    decide +kernel
  have hbody : body .default "((a),(b))" =
      [.row [.leaf .mo "(", columnNode [.leaf .mi "a", .leaf .mi "b"], .leaf .mo ")"]] := by
    rw [body_eq, ofInput, hcolumn]
    decide +kernel
  have hn : WithinLimits (notices ("sqrt" ++ " " ++ "((a),(b))")) := by
    rw [notices, ofInput, lexemes_after_word hf rfl (by simp [hcolumn]), hcolumn]
    unfold WithinLimits
    decide +kernel
  obtain ⟨hfraction, _, _, _, hcall⟩ := table_as_operand hm hbody
  exact ⟨hm, hbody, hfraction, hf, hn, (hcall "sqrt" _ hf).1 .squareRoot rfl (by decide) hn⟩

end

end FormulaMarkup
