import FormulaMarkup.Converter
import FormulaMarkup.Proofs.Grammar.Yield
import FormulaMarkup.Proofs.OnDemand.Run

/-!
# Derivations as runs

The reader on demand follows the rules of the grammar too: what has a derivation is what a run
gives. So the run on an input ends, with the formula of the input, and what it tells on its way is
the outline of that formula. The rules also tell that an operand is only asked for where one can
begin, apart from a term outside of all groups.
-/

namespace FormulaMarkup.OnDemand

open Formula

namespace Run

open Reader (readBody readTerm readScripted readScripts readMarked readOperand readFrom readWord
  readNested readGroup readBars readFunction readUnary readArgument readBinary)

variable {room groups : Nat} {inBar : Bool} {s l left : List Lexeme} {x : Lexeme}
  {told told' : List Outline}

/-! ## What the first lexeme begins -/

theorem reads_operand {site : Site} {operand : Operand} (hsite : Allowed site inBar groups (x :: s))
    (h : Reads room inBar groups (readFrom x) s operand left told) :
    Reads room inBar groups (readOperand site) (x :: s) operand left
      (.operand site inBar groups (some x) :: told) := by
  rw [readOperand]
  exact (reads_demand hsite).bind h

theorem readFrom_number (n : Numeral) : readFrom (.number n) = pure (.number n) := by
  rw [readFrom]

theorem readFrom_text (body : String) : readFrom (.text body) = pure (.text body) := by
  rw [readFrom]

theorem readFrom_character (c : Char) : readFrom (.character c) = pure (.character c) := by
  rw [readFrom]

theorem readFrom_leaf {word : Word} (role : word.role.isLeaf = true) :
    readFrom (.symbol word) = pure (.leaf word role) := by
  rw [readFrom]
  obtain ⟨spelling, ⟨element, output, kind⟩, known⟩ := word
  cases kind <;> first | rfl | cases role

theorem readFrom_keyword {word : Word} (role : word.role = .wordOperator) :
    readFrom (.symbol word) = pure (.keyword word role) := by
  rw [readFrom]
  obtain ⟨spelling, ⟨element, output, kind⟩, known⟩ := word
  obtain rfl : kind = _ := role
  rfl

theorem readFrom_strayClosing {word : Word} (role : word.role = .closeBracket) :
    readFrom (.symbol word) = pure (.strayClosing word role) := by
  rw [readFrom]
  obtain ⟨spelling, ⟨element, output, kind⟩, known⟩ := word
  obtain rfl : kind = _ := role
  rfl

theorem readFrom_nested {word : Word} (nests : word.role.nests = true) :
    readFrom (.symbol word) = readWord word nests := by
  rw [readFrom]
  obtain ⟨spelling, ⟨element, output, kind⟩, known⟩ := word
  cases kind <;> first | rfl | cases nests

theorem readNested_group {word : Word} (nests : word.role.nests = true)
    (role : word.role = .openBracket) : readNested word nests = readGroup word role := by
  rw [readNested]
  obtain ⟨spelling, ⟨element, output, kind⟩, known⟩ := word
  obtain rfl : kind = _ := role
  rfl

theorem readNested_bars {word : Word} (nests : word.role.nests = true)
    (role : word.role = .leftRight) : readNested word nests = readBars word role := by
  rw [readNested]
  obtain ⟨spelling, ⟨element, output, kind⟩, known⟩ := word
  obtain rfl : kind = _ := role
  rfl

theorem readNested_function {word : Word} (nests : word.role.nests = true)
    (role : word.role = .function) : readNested word nests = readFunction word role := by
  rw [readNested]
  obtain ⟨spelling, ⟨element, output, kind⟩, known⟩ := word
  obtain rfl : kind = _ := role
  rfl

theorem readNested_unary {word : Word} {kind : UnaryKind} (nests : word.role.nests = true)
    (role : word.role = .unary kind) : readNested word nests = readUnary word kind role := by
  rw [readNested]
  obtain ⟨spelling, ⟨element, output, kind⟩, known⟩ := word
  obtain rfl : kind = _ := role
  rfl

theorem readNested_binary {word : Word} {order : ArgOrder} (nests : word.role.nests = true)
    (role : word.role = .binary order) : readNested word nests = readBinary word order role := by
  rw [readNested]
  obtain ⟨spelling, ⟨element, output, kind⟩, known⟩ := word
  obtain rfl : kind = _ := role
  rfl

theorem reads_word {site : Site} {word : Word} {operand : Operand}
    (hsite : Allowed site inBar groups (.symbol word :: s)) (nests : word.role.nests = true)
    (h : Reads room inBar groups (readNested word nests) s operand left told) :
    Reads (room + 1) inBar groups (readOperand site) (.symbol word :: s) operand left
      (.operand site inBar groups (some (.symbol word)) :: told) := by
  refine reads_operand hsite (.of_room_le fun hroom => ?_)
  rw [readFrom_nested nests, readWord]
  refine reads_getDepth.after ?_
  rw [if_neg (by omega)]
  exact h.nested

theorem reads_beyondLimit {site : Site} {word : Word}
    (hsite : Allowed site inBar groups (.symbol word :: s)) (nests : word.role.nests = true) :
    Reads 0 inBar groups (readOperand site) (.symbol word :: s) (.beyondLimit word nests) s
      [.operand site inBar groups (some (.symbol word))] := by
  refine reads_operand hsite ?_
  rw [readFrom_nested nests, readWord]
  refine reads_getDepth.after ?_
  rw [Nat.sub_zero, if_pos (Nat.le_refl _)]
  exact .pure

/-! ## What a word begins -/

section

variable {word : Word} {argument argument' : Operand} {scripts : Scripts} {body : List Term}

theorem reads_group {role : word.role = .openBracket} {closing : Option (WordOf .closeBracket)}
    (hbody : Reads room false (groups + 1) (readBody true) s body l told)
    (hclose : ReadsClosing .closeBracket l closing left) :
    Reads room inBar groups (readGroup word role) s (.group word role body closing) left told := by
  rw [readGroup]
  exact .group hbody (reads_takeClosing hclose).andReturn

theorem reads_bars {role : word.role = .leftRight} {closing : Option (WordOf .leftRight)}
    (paired : Formula.hasClosingBar 0 s = true)
    (hbody : Reads room true (groups + 1) (readBody true) s body l told)
    (hclose : ReadsClosing .leftRight l closing left) :
    Reads room inBar groups (readBars word role) s (.bars word role body closing) left told := by
  rw [readBars]
  exact (reads_hasClosingBar paired).after (.group hbody (reads_takeClosing hclose).andReturn)

theorem reads_loneBar {role : word.role = .leftRight}
    (alone : Formula.hasClosingBar 0 s = false) :
    Reads room inBar groups (readBars word role) s (.loneBar word role) s [] := by
  rw [readBars]
  exact (reads_hasClosingBar alone).after .pure

theorem reads_function {role : word.role = .function}
    (hscripts : Reads room inBar groups (readScripts .empty) s scripts l told)
    (more : Formula.atOperandEnd inBar l = false)
    (hargument : Reads room inBar groups (readOperand .argument) l argument left told') :
    Reads room inBar groups (readFunction word role) s (.function word role scripts argument)
      left (told ++ told') := by
  rw [readFunction]
  exact hscripts.bind ((reads_atOperandEnd more).after hargument.andReturn)

theorem reads_functionAlone {role : word.role = .function}
    (hscripts : Reads room inBar groups (readScripts .empty) s scripts left told)
    (ends : Formula.atOperandEnd inBar left = true) :
    Reads room inBar groups (readFunction word role) s (.functionAlone word role scripts) left
      told := by
  rw [readFunction]
  exact hscripts.before ((reads_atOperandEnd ends).after .pure)

theorem reads_noArgument (role : word.role.isCall = true) (nests : word.role.nests = true)
    (ends : Formula.atOperandEnd inBar s = true) :
    Reads room inBar groups (readNested word nests) s (.noArgument word role) s [] := by
  cases hrole : word.role with
  | unary kind =>
    rw [readNested_unary nests hrole, readUnary]
    exact (reads_atOperandEnd ends).after .pure
  | binary order =>
    rw [readNested_binary nests hrole, readBinary]
    exact (reads_atOperandEnd ends).after .pure
  | _ => rw [hrole] at role; cases role

theorem reads_verbatim {role : word.role = .unary .text} {body : String} :
    Reads room inBar groups (readUnary word .text role) (.text body :: s)
      (.verbatim word role body) s [] := by
  rw [readUnary]
  exact (reads_atOperandEnd rfl).after (reads_peek.after (.afterNext .pure))

theorem reads_unary {kind : UnaryKind} {role : word.role = .unary kind}
    (more : Formula.atOperandEnd inBar s = false)
    (markup : kind = .text → ∀ body, s.head? ≠ some (.text body))
    (hargument : Reads room inBar groups (readOperand .argument) s argument left told) :
    Reads room inBar groups (readUnary word kind role) s (.unary word kind role argument) left
      told := by
  have hread : Reads room inBar groups (readArgument word kind role) s
      (.unary word kind role argument) left told := by
    rw [readArgument]
    exact hargument.andReturn
  rw [readUnary]
  refine (reads_atOperandEnd more).after ?_
  rw [if_neg Bool.false_ne_true]
  split
  · next htext =>
    refine reads_peek.after ?_
    split
    · next body hhead => exact absurd hhead (markup htext body)
    · exact hread
  · exact hread

theorem reads_noSecond {order : ArgOrder} {role : word.role = .binary order}
    (more : Formula.atOperandEnd inBar s = false)
    (hargument : Reads room inBar groups (readOperand .argument) s argument left told)
    (ends : Formula.atOperandEnd inBar left = true) :
    Reads room inBar groups (readBinary word order role) s (.noSecond word order role argument)
      left told := by
  rw [readBinary]
  exact (reads_atOperandEnd more).after
    (hargument.before ((reads_atOperandEnd ends).after .pure))

theorem reads_binary {order : ArgOrder} {role : word.role = .binary order}
    (more : Formula.atOperandEnd inBar s = false)
    (hargument : Reads room inBar groups (readOperand .argument) s argument l told)
    (more' : Formula.atOperandEnd inBar l = false)
    (hargument' : Reads room inBar groups (readOperand .argument) l argument' left told') :
    Reads room inBar groups (readBinary word order role) s
      (.binary word order role argument argument') left (told ++ told') := by
  rw [readBinary]
  exact (reads_atOperandEnd more).after
    (hargument.bind ((reads_atOperandEnd more').after hargument'.andReturn))

end

/-! ## Loops -/

section

variable {slots : Slots} {operand : Operand} {scripts : Scripts} {term : Term} {terms : List Term}

theorem reads_scripts_complete (next : ∀ x ∈ s.head?, x.marker? = none) :
    Reads room inBar groups (readScripts slots) s (.done .complete) s
      (attached (slots.sub || slots.sup) slots) := by
  have hnone : s.head?.bind Lexeme.marker? = none := Option.bind_eq_none_iff.2 next
  rw [readScripts]
  refine reads_peek.after ?_
  rw [hnone]
  exact reads_endScripts slots .complete

theorem head?_marker (marker : Marker) (s : List Lexeme) :
    (Lexeme.symbol marker.word :: s).head?.bind Lexeme.marker? = some marker :=
  Marker.marker?_word marker

theorem reads_scripts_noOperand (marker : Marker) (ends : Formula.atOperandEnd inBar s = true) :
    Reads room inBar groups (readScripts slots) (.symbol marker.word :: s) (.done .noOperand)
      (.symbol marker.word :: s) (attached (slots.sub || slots.sup) slots) := by
  rw [readScripts]
  refine reads_peek.after ?_
  rw [head?_marker]
  exact (reads_lacksOperand ends).after (reads_endScripts slots .noOperand)

/-- How many levels of scripts may still be added depends on how many levels are open. -/
theorem limit_iff (h : room ≤ maxDepth) (levels : Nat) :
    maxDepth ≤ maxDepth - room + levels + 1 ↔ room ≤ levels + 1 := by omega

theorem reads_scripts_limit (marker : Marker) (more : Formula.atOperandEnd inBar s = false)
    (full : (slots.isTaken marker && room ≤ slots.levels + 1) = true) :
    Reads room inBar groups (readScripts slots) (.symbol marker.word :: s) (.done .limit)
      (.symbol marker.word :: s) (attached (slots.sub || slots.sup) slots) := by
  refine .of_room_le fun hroom => ?_
  rw [readScripts]
  refine reads_peek.after ?_
  rw [head?_marker]
  refine (reads_lacksOperand more).after (reads_getDepth.after ?_)
  rw [decide_eq_decide.2 (limit_iff hroom slots.levels), if_pos full]
  exact reads_endScripts slots .limit

theorem reads_scripts_cons (marker : Marker) (more : Formula.atOperandEnd inBar s = false)
    (free : (slots.isTaken marker && room ≤ slots.levels + 1) = false)
    (htaken : operand.yield ++ l = s)
    (hoperand : Reads room inBar groups (readOperand .script) s operand l told)
    (hrest : Reads room inBar groups (readScripts (slots.add marker)) l scripts left told') :
    Reads room inBar groups (readScripts slots) (.symbol marker.word :: s)
      (.cons marker operand scripts) left
      (attached (slots.isTaken marker) slots ++
        (told ++ .round (operand.yield.length + 1) :: told')) := by
  refine .of_room_le fun hroom => ?_
  have hmarked : Reads room inBar groups readMarked (.symbol marker.word :: s) operand l told := by
    rw [readMarked]
    exact .afterNext hoperand
  have hlength : (Lexeme.symbol marker.word :: s).length = operand.yield.length + 1 + l.length := by
    rw [List.length_cons, ← htaken, List.length_append, Nat.add_right_comm]
  rw [readScripts]
  refine reads_peek.after ?_
  rw [head?_marker]
  refine (reads_lacksOperand more).after (reads_getDepth.after ?_)
  rw [decide_eq_decide.2 (limit_iff hroom slots.levels), if_neg (Bool.not_eq_true _ ▸ free)]
  exact (reads_attachFull slots marker).bind
    (.round hmarked hlength (Nat.succ_pos _) hrest.andReturn)

theorem reads_body_nil {inGroup : Bool} (ends : bodyEnds inBar inGroup s = true) :
    Reads room inBar groups (readBody inGroup) s [] s [] := by
  rw [readBody]
  refine reads_peek.after ?_
  cases s with
  | nil => exact .pure
  | cons x s =>
    have hcloses : (inGroup && closes inBar x) = true := ends
    refine reads_getInBar.after ?_
    rw [if_pos hcloses]
    exact .pure

theorem reads_body_cons {inGroup : Bool} (goes : bodyEnds inBar inGroup s = false)
    (hterm : Reads room inBar groups (readTerm inGroup) s term l told)
    (htaken : term.yield ++ l = s) (hlt : l.length < s.length)
    (hrest : Reads room inBar groups (readBody inGroup) l terms left told') :
    Reads room inBar groups (readBody inGroup) s (term :: terms) left
      (told ++ .round term.yield.length :: told') := by
  have hlength : s.length = term.yield.length + l.length := by
    rw [← htaken, List.length_append]
  rw [readBody]
  refine reads_peek.after ?_
  cases s with
  | nil => cases goes
  | cons x s =>
    have hopen : (inGroup && closes inBar x) = false := goes
    refine reads_getInBar.after ?_
    rw [if_neg (Bool.not_eq_true _ ▸ hopen)]
    exact .round hterm hlength (by omega) hrest.andReturn

end

/-! ## Terms -/

section

variable {base base' : Operand} {scripts scripts' : Scripts}

theorem reads_scripted {site : Site}
    (hbase : Reads room inBar groups (readOperand site) s base l told)
    (hscripts : Reads room inBar groups (readScripts .empty) l scripts left told') :
    Reads room inBar groups (readScripted site) s (base, scripts) left (told ++ told') := by
  rw [readScripted]
  exact hbase.bind hscripts.andReturn

theorem reads_term_scripted {inGroup : Bool}
    (hscripted : Reads room inBar groups (readScripted (.term inGroup)) s (base, scripts) left
      told)
    (next : left.head? ≠ some (.symbol .slash)) :
    Reads room inBar groups (readTerm inGroup) s (.scripted base scripts) left told := by
  rw [readTerm]
  refine hscripted.before (reads_peek.after ?_)
  rw [if_neg next]
  exact .pure

theorem reads_term_noDenominator {inGroup : Bool}
    (hscripted : Reads room inBar groups (readScripted (.term inGroup)) s (base, scripts)
      (.symbol .slash :: left) told)
    (ends : Formula.atOperandEnd inBar left = true) :
    Reads room inBar groups (readTerm inGroup) s (.noDenominator base scripts)
      (.symbol .slash :: left) told := by
  rw [readTerm]
  refine hscripted.before (reads_peek.after ?_)
  rw [if_pos List.head?_cons]
  exact (reads_lacksOperand ends).after .pure

theorem reads_term_fraction {inGroup : Bool}
    (hscripted : Reads room inBar groups (readScripted (.term inGroup)) s (base, scripts)
      (.symbol .slash :: l) told)
    (more : Formula.atOperandEnd inBar l = false)
    (hscripted' : Reads room inBar groups (readScripted .denominator) l (base', scripts') left
      told') :
    Reads room inBar groups (readTerm inGroup) s (.fraction base scripts base' scripts') left
      (told ++ told') := by
  rw [readTerm]
  refine hscripted.bind (reads_peek.after ?_)
  rw [if_pos List.head?_cons]
  exact (reads_lacksOperand more).after (.afterNext hscripted'.andReturn)

end

/-- Where a body goes on, a term may begin: a group would have ended before what closes it. -/
theorem allowed_term {inGroup : Bool} (goes : bodyEnds inBar inGroup s = false)
    (h : inGroup = true ∨ groups = 0 ∧ inBar = false) : Allowed (.term inGroup) inBar groups s := by
  cases s with
  | nil => cases goes
  | cons x s =>
    cases inGroup with
    | true => exact .inl goes
    | false =>
      obtain ⟨hgroups, hbar⟩ := h.resolve_left Bool.false_ne_true
      exact .inr ⟨rfl, hgroups, hbar⟩

/-! ## Every derivation is a run -/

mutual

theorem reads_of_operand {room inBar s operand left} :
    ReadsOperand room inBar s operand left → ∀ {site groups}, Allowed site inBar groups s →
      Reads room inBar groups (readOperand site) s operand left
        (operand.asked site inBar groups :: operand.outline inBar groups)
  | .number n, _, _, hsite => reads_operand hsite (by rw [readFrom_number]; exact .pure)
  | .text body, _, _, hsite => reads_operand hsite (by rw [readFrom_text]; exact .pure)
  | .character c, _, _, hsite => reads_operand hsite (by rw [readFrom_character]; exact .pure)
  | .leaf word role, _, _, hsite => reads_operand hsite (by rw [readFrom_leaf role]; exact .pure)
  | .keyword word role, _, _, hsite =>
    reads_operand hsite (by rw [readFrom_keyword role]; exact .pure)
  | .strayClosing word role, _, _, hsite =>
    reads_operand hsite (by rw [readFrom_strayClosing role]; exact .pure)
  | .beyondLimit word nests, _, _, hsite => reads_beyondLimit hsite nests
  | .group word role content close, _, groups, hsite => by
    have hbody : Reads _ false (groups + 1) (readBody true) _ _ _ _ :=
      reads_of_body content (.inl rfl)
    refine reads_word hsite (by rw [role]; rfl) ?_
    rw [readNested_group _ role]
    exact reads_group hbody close
  | .loneBar word role alone, _, _, hsite => by
    refine reads_word hsite (by rw [role]; rfl) ?_
    rw [readNested_bars _ role]
    exact reads_loneBar alone
  | .bars word role paired content close, _, groups, hsite => by
    have hbody : Reads _ true (groups + 1) (readBody true) _ _ _ _ :=
      reads_of_body content (.inl rfl)
    refine reads_word hsite (by rw [role]; rfl) ?_
    rw [readNested_bars _ role]
    exact reads_bars paired hbody close
  | .function word role first more second, _, _, hsite => by
    refine reads_word hsite (by rw [role]; rfl) ?_
    rw [readNested_function _ role]
    exact reads_function (reads_of_scripts first) more (reads_of_operand second (.inl more))
  | .functionAlone word role first ends, _, _, hsite => by
    refine reads_word hsite (by rw [role]; rfl) ?_
    rw [readNested_function _ role]
    exact reads_functionAlone (reads_of_scripts first) ends
  | .noArgument word role ends, _, _, hsite =>
    reads_word hsite (Role.nests_of_isCall role) (reads_noArgument role _ ends)
  | .verbatim word role body, _, _, hsite => by
    refine reads_word hsite (by rw [role]; rfl) ?_
    rw [readNested_unary _ role]
    exact reads_verbatim
  | .unary word kind role more markup first, _, _, hsite => by
    refine reads_word hsite (by rw [role]; rfl) ?_
    rw [readNested_unary _ role]
    exact reads_unary more markup (reads_of_operand first (.inl more))
  | .noSecond word order role more first ends, _, _, hsite => by
    refine reads_word hsite (by rw [role]; rfl) ?_
    rw [readNested_binary _ role]
    exact reads_noSecond more (reads_of_operand first (.inl more)) ends
  | .binary word order role more first more' second, _, _, hsite => by
    refine reads_word hsite (by rw [role]; rfl) ?_
    rw [readNested_binary _ role]
    exact reads_binary more (reads_of_operand first (.inl more)) more'
      (reads_of_operand second (.inl more'))

theorem reads_of_scripts {room inBar slots s scripts left} :
    ReadsScripts room inBar slots s scripts left → ∀ {groups},
      Reads room inBar groups (readScripts slots) s scripts left
        (scripts.outline inBar groups slots)
  | .complete next, _ => reads_scripts_complete next
  | .noOperand marker ends, _ => reads_scripts_noOperand marker ends
  | .limit marker more full, _ => reads_scripts_limit marker more full
  | .cons marker more free first rest, _ =>
    reads_scripts_cons marker more free first.yield_append (reads_of_operand first (.inl more))
      (reads_of_scripts rest)

theorem reads_of_term {room inBar s term left} :
    ReadsTerm room inBar s term left → ∀ {inGroup groups},
      Allowed (.term inGroup) inBar groups s →
      Reads room inBar groups (readTerm inGroup) s term left (term.outline inGroup inBar groups)
  | .scripted first second next, _, _, hsite =>
    reads_term_scripted (reads_scripted (reads_of_operand first hsite) (reads_of_scripts second))
      next
  | .noDenominator first second ends, _, _, hsite =>
    reads_term_noDenominator
      (reads_scripted (reads_of_operand first hsite) (reads_of_scripts second)) ends
  | .fraction first second more third fourth, _, _, hsite =>
    reads_term_fraction (reads_scripted (reads_of_operand first hsite) (reads_of_scripts second))
      more (reads_scripted (reads_of_operand third (.inl more)) (reads_of_scripts fourth))

theorem reads_of_body {room inBar inGroup s terms left} :
    ReadsBody room inBar inGroup s terms left → ∀ {groups},
      inGroup = true ∨ groups = 0 ∧ inBar = false →
      Reads room inBar groups (readBody inGroup) s terms left
        (Term.outlineOfList inGroup inBar groups terms)
  | .nil ends, _, _ => reads_body_nil ends
  | .cons goes first rest, _, h =>
    reads_body_cons goes (reads_of_term first (allowed_term goes h)) first.yield_append
      first.length_lt (reads_of_body rest h)

end

end Run

/-! ## The run of an input -/

theorem ofInput_at (input : String) :
    (Reader.ofInput input).At maxDepth false 0 (lexemes input) :=
  ⟨Nat.zero_add _, rfl, rfl, congrArg (List.map _) (Lookahead.remaining_ofInput input)⟩

/-- A run ends, with the formula of the input, and tells of each operand in it, of each level of
scripts and of each round of a loop. No operand is asked for at the end of the input, nor before
what closes the group around; scripts are attached where there are some; each round of a loop takes
something; and in the end every token has been taken once. -/
theorem run_complete (input : String) :
    ∃ last, run input = some (Formula.ofInput input, last) ∧
      last.outline = Term.outlineOfList false false 0 (Formula.ofInput input) ∧
      (∀ event ∈ last.events, event.Sound) ∧
      last.taken = (tokenize input).map .token ∧
      ∃ position, last.ahead.peek.1 = .endOfInput position := by
  have hreads := Run.reads_of_body (parse_reads (lexemes input)) (.inr ⟨rfl, rfl⟩)
  obtain ⟨last, hrun, hat, hlead⟩ := hreads _ (ofInput_at input)
  have hremaining : last.ahead.remaining = [] := List.map_eq_nil_iff.1 hat.lexemes
  have hend := Lookahead.peekNth_of_none (n := 0) (by rw [hremaining]; rfl)
  refine ⟨last, hrun, hlead.outline, hlead.sound (List.forall_mem_nil _), ?_, _,
    congrArg Prod.fst hend⟩
  have hitems := hlead.items
  rw [Reader.items, hremaining, Reader.items] at hitems
  simpa [Reader.ofInput, Lookahead.remaining_ofInput] using hitems

end FormulaMarkup.OnDemand
