import FormulaMarkup.Proofs.Grammar.Rules

/-!
# The reader follows the rules

What is read from lexemes has a derivation, and a derivation tells what is read. So a statement
about reading is proved by induction on derivations, and the reader need not be opened again.
-/

namespace FormulaMarkup.Formula

/-! ## The first lexeme -/

@[simp] theorem Marker.marker?_word (m : Marker) : (Lexeme.symbol m.word).marker? = some m := by
  cases m <;> decide

@[simp] theorem atOperandEnd_cons (inBar : Bool) (x : Lexeme) (s : List Lexeme) :
    atOperandEnd inBar (x :: s) = closes inBar x := rfl

variable {nested : (word : Word) → word.role.nests = true → (rest : List Lexeme) →
  Parsed Operand rest}

theorem parseLeaf_leaf {word : Word} (role : word.role.isLeaf = true) (rest : List Lexeme) :
    parseLeaf nested (.symbol word) rest = .pure (.leaf word role) rest := by
  obtain ⟨spelling, ⟨element, output, kind⟩, known⟩ := word
  cases kind <;> first | rfl | cases role

theorem parseLeaf_keyword {word : Word} (role : word.role = .wordOperator) (rest : List Lexeme) :
    parseLeaf nested (.symbol word) rest = .pure (.keyword word role) rest := by
  obtain ⟨spelling, ⟨element, output, kind⟩, known⟩ := word
  obtain rfl : kind = _ := role
  rfl

theorem parseLeaf_strayClosing {word : Word} (role : word.role = .closeBracket)
    (rest : List Lexeme) :
    parseLeaf nested (.symbol word) rest = .pure (.strayClosing word role) rest := by
  obtain ⟨spelling, ⟨element, output, kind⟩, known⟩ := word
  obtain rfl : kind = _ := role
  rfl

theorem parseLeaf_nested {word : Word} (nests : word.role.nests = true) (rest : List Lexeme) :
    parseLeaf nested (.symbol word) rest = nested word nests rest := by
  obtain ⟨spelling, ⟨element, output, kind⟩, known⟩ := word
  cases kind <;> first | rfl | cases nests

variable {operand : OperandReader} {room : Nat} {inBar : Bool}

theorem parseNested_group {word : Word} (nests : word.role.nests = true)
    (role : word.role = .openBracket) (rest : List Lexeme) :
    parseNested operand room inBar word nests rest = parseGroup operand room word role rest := by
  obtain ⟨spelling, ⟨element, output, kind⟩, known⟩ := word
  obtain rfl : kind = _ := role
  rfl

theorem parseNested_bars {word : Word} (nests : word.role.nests = true)
    (role : word.role = .leftRight) (rest : List Lexeme) :
    parseNested operand room inBar word nests rest = parseBars operand room word role rest := by
  obtain ⟨spelling, ⟨element, output, kind⟩, known⟩ := word
  obtain rfl : kind = _ := role
  rfl

theorem parseNested_function {word : Word} (nests : word.role.nests = true)
    (role : word.role = .function) (rest : List Lexeme) :
    parseNested operand room inBar word nests rest =
      parseFunction operand room inBar word role rest := by
  obtain ⟨spelling, ⟨element, output, kind⟩, known⟩ := word
  obtain rfl : kind = _ := role
  rfl

theorem parseNested_unary {word : Word} {kind : UnaryKind} (nests : word.role.nests = true)
    (role : word.role = .unary kind) (rest : List Lexeme) :
    parseNested operand room inBar word nests rest =
      parseUnary operand inBar word kind role rest := by
  obtain ⟨spelling, ⟨element, output, kind⟩, known⟩ := word
  obtain rfl : kind = _ := role
  rfl

theorem parseNested_binary {word : Word} {order : ArgOrder} (nests : word.role.nests = true)
    (role : word.role = .binary order) (rest : List Lexeme) :
    parseNested operand room inBar word nests rest =
      parseBinary operand inBar word order role rest := by
  obtain ⟨spelling, ⟨element, output, kind⟩, known⟩ := word
  obtain rfl : kind = _ := role
  rfl

/-! ## What is read has a derivation -/

/-- The reader of operands follows the rules. -/
def Follows (operand : OperandReader) (room : Nat) : Prop :=
  ∀ inBar x rest, ReadsOperand room inBar (x :: rest) (operand inBar x rest).value
    (operand inBar x rest).left

theorem parseScripts_reads (h : Follows operand room) (slots : Slots) (s : List Lexeme) :
    ReadsScripts room inBar slots s (parseScripts operand room inBar slots s).value
      (parseScripts operand room inBar slots s).left := by
  fun_induction parseScripts operand room inBar slots s with
  | case1 slots => exact .complete (by simp)
  | case2 slots x s hx => exact .complete (by simpa using hx)
  | case3 slots x marker hx =>
    rw [Lexeme.eq_of_marker? hx]
    exact .noOperand marker rfl
  | case4 slots x marker hx y rest hy =>
    rw [Lexeme.eq_of_marker? hx]
    exact .noOperand marker hy
  | case5 slots x marker hx y rest hy full =>
    rw [Lexeme.eq_of_marker? hx]
    exact .limit marker (by simpa using hy) full
  | case6 slots x marker hx y rest hy free first more ih =>
    rw [Lexeme.eq_of_marker? hx]
    exact .cons marker (by simpa using hy) (by simpa using free) (h inBar y rest) ih

theorem parseArgument?_reads (h : Follows operand room) {s : List Lexeme}
    {argument : Parsed Operand s} (hs : parseArgument? operand inBar s = some argument) :
    atOperandEnd inBar s = false ∧ ReadsOperand room inBar s argument.value argument.left := by
  cases s with
  | nil => cases hs
  | cons x rest =>
    simp only [parseArgument?] at hs
    split at hs
    · cases hs
    · next hx =>
      cases hs
      exact ⟨by simpa using hx, h inBar x rest⟩

theorem parseArgument?_none {s : List Lexeme} (hs : parseArgument? operand inBar s = none) :
    atOperandEnd inBar s = true := by
  cases s with
  | nil => rfl
  | cons x rest =>
    simp only [parseArgument?] at hs
    split at hs
    · next hx => exact hx
    · cases hs

theorem parseFraction_reads (h : Follows operand room) {s l given : List Lexeme}
    {scripted : Parsed (Operand × Scripts) given}
    (first : ReadsOperand room inBar s scripted.value.1 l)
    (second : ReadsScripts room inBar .empty l scripted.value.2 scripted.left) :
    ReadsTerm room inBar s (parseFraction operand room inBar scripted).value
      (parseFraction operand room inBar scripted).left := by
  obtain ⟨⟨base, scripts⟩, left, le⟩ := scripted
  cases left with
  | nil => simpa [parseFraction] using ReadsTerm.scripted first second (by simp)
  | cons y s =>
    simp only [parseFraction]
    split
    · next hy =>
      subst hy
      split
      · next hs => exact .noDenominator first second (parseArgument?_none hs)
      · next denominator hs =>
        obtain ⟨more, third⟩ := parseArgument?_reads h hs
        exact .fraction first second more third (parseScripts_reads h .empty denominator.left)
    · next hy => exact .scripted first second (by simpa using hy)

theorem parseTerm_reads (h : Follows operand room) (x : Lexeme) (rest : List Lexeme) :
    ReadsTerm room inBar (x :: rest) (parseTerm operand room inBar x rest).value
      (parseTerm operand room inBar x rest).left :=
  parseFraction_reads h (h inBar x rest) (parseScripts_reads h .empty _)

theorem parseBody_reads (h : Follows operand room) (inGroup : Bool) (s : List Lexeme) :
    ReadsBody room inBar inGroup s (parseBody operand room inBar inGroup s).value
      (parseBody operand room inBar inGroup s).left := by
  fun_induction parseBody operand room inBar inGroup s with
  | case1 => exact .nil rfl
  | case2 x rest hx => exact .nil hx
  | case3 x rest hx term more ih =>
    exact .cons (by simpa [bodyEnds] using hx) (parseTerm_reads h x rest) ih

theorem parseClosing_reads (role : Role) (s : List Lexeme) :
    ReadsClosing role s (parseClosing role s).value (parseClosing role s).left := by
  unfold parseClosing
  split
  · next word rest =>
    split
    · next hword => exact .closed ⟨word, hword⟩ rest
    · next hword => exact .unclosed (by simpa [Lexeme.role?, Lexeme.symbol?, Word.role] using hword)
  · next hs =>
    refine .unclosed fun y hy => ?_
    obtain ⟨rest, rfl⟩ := List.head?_eq_some_iff.1 hy
    cases y with
    | symbol word => exact absurd rfl (hs word rest)
    | _ => simp [Lexeme.role?, Lexeme.symbol?]

theorem parseNested_reads (h : Follows operand room) (word : Word)
    (nests : word.role.nests = true) (rest : List Lexeme) :
    ReadsOperand (room + 1) inBar (.symbol word :: rest)
      (parseNested operand room inBar word nests rest).value
      (parseNested operand room inBar word nests rest).left := by
  unfold parseNested
  split
  · next role => exact .group word role (parseBody_reads h true rest) (parseClosing_reads _ _)
  · next role =>
    unfold parseBars
    split
    · next paired =>
      exact .bars word role paired (parseBody_reads h true rest) (parseClosing_reads _ _)
    · next alone => exact .loneBar word role (by simpa using alone)
  · next role =>
    have first : ReadsScripts room inBar .empty rest _ _ := parseScripts_reads h .empty rest
    unfold parseFunction
    simp only
    split
    · next hs => exact .functionAlone word role first (parseArgument?_none hs)
    · next argument hs =>
      obtain ⟨more, second⟩ := parseArgument?_reads h hs
      exact .function word role first more second
  · next kind role =>
    unfold parseUnary
    split
    · next role body s => exact .verbatim word role body
    · next markup =>
      split
      · next hs => exact .noArgument word _ (parseArgument?_none hs)
      · next argument hs =>
        obtain ⟨more, first⟩ := parseArgument?_reads h hs
        refine .unary word kind role more (fun hkind body hbody => ?_) first
        subst hkind
        obtain ⟨s, rfl⟩ := List.head?_eq_some_iff.1 hbody
        exact markup role body s rfl HEq.rfl rfl
  · next order role =>
    unfold parseBinary
    split
    · next hs => exact .noArgument word _ (parseArgument?_none hs)
    · next argument hs =>
      obtain ⟨more, first⟩ := parseArgument?_reads h hs
      split
      · next hs' => exact .noSecond word order role more first (parseArgument?_none hs')
      · next argument' hs' =>
        obtain ⟨more', second⟩ := parseArgument?_reads h hs'
        exact .binary word order role more first more' second
  all_goals next role => simp [role, Role.nests] at nests

theorem parseOperand_reads : (room : Nat) → Follows (parseOperand room) room
  | room, inBar, .number n, rest => by cases room <;> exact .number n
  | room, inBar, .text body, rest => by cases room <;> exact .text body
  | room, inBar, .character c, rest => by cases room <;> exact .character c
  | 0, inBar, .symbol word, rest => by
    unfold parseOperand parseLeaf
    dsimp only
    split <;> first
      | exact .leaf word _
      | exact .keyword word _
      | exact .strayClosing word _
      | exact .beyondLimit word _
  | room + 1, inBar, .symbol word, rest => by
    unfold parseOperand parseLeaf
    dsimp only
    split <;> first
      | exact .leaf word _
      | exact .keyword word _
      | exact .strayClosing word _
      | exact parseNested_reads (parseOperand_reads room) word _ rest

/-! ## A derivation tells what is read -/

/-- What has been read is the value, and what is left is as given. -/
def Parsed.Gives {α : Type} {given : List Lexeme} (parsed : Parsed α given) (value : α)
    (left : List Lexeme) : Prop :=
  parsed.value = value ∧ parsed.left = left

theorem parseOperand_leaf {word : Word} (role : word.role.isLeaf = true) (rest : List Lexeme) :
    parseOperand room inBar (.symbol word) rest = .pure (.leaf word role) rest := by
  cases room <;> exact parseLeaf_leaf role rest

theorem parseOperand_keyword {word : Word} (role : word.role = .wordOperator)
    (rest : List Lexeme) :
    parseOperand room inBar (.symbol word) rest = .pure (.keyword word role) rest := by
  cases room <;> exact parseLeaf_keyword role rest

theorem parseOperand_strayClosing {word : Word} (role : word.role = .closeBracket)
    (rest : List Lexeme) :
    parseOperand room inBar (.symbol word) rest = .pure (.strayClosing word role) rest := by
  cases room <;> exact parseLeaf_strayClosing role rest

theorem parseOperand_nested {word : Word} (nests : word.role.nests = true) (rest : List Lexeme) :
    parseOperand (room + 1) inBar (.symbol word) rest =
      parseNested (parseOperand room) room inBar word nests rest :=
  parseLeaf_nested nests rest

theorem ReadsClosing.gives {role : Role} {s left : List Lexeme} {closing : Option (WordOf role)}
    (h : ReadsClosing role s closing left) : (parseClosing role s).Gives closing left := by
  cases h with
  | closed word => simp [parseClosing, word.2, Parsed.Gives]
  | unclosed next =>
    unfold parseClosing
    split
    · next word rest =>
      rw [dif_neg (by simpa [Lexeme.role?, Lexeme.symbol?, Word.role] using next)]
      exact ⟨rfl, rfl⟩
    · exact ⟨rfl, rfl⟩

theorem parseArgument?_gives {s left : List Lexeme} {value : Operand}
    (more : atOperandEnd inBar s = false)
    (h : ∃ x rest, s = x :: rest ∧ (operand inBar x rest).Gives value left) :
    ∃ argument, parseArgument? operand inBar s = some argument ∧ argument.Gives value left := by
  obtain ⟨x, rest, rfl, h⟩ := h
  rw [atOperandEnd_cons] at more
  simp only [parseArgument?, more]
  exact ⟨_, rfl, h⟩

theorem parseArgument?_of_end {s : List Lexeme} (h : atOperandEnd inBar s = true) :
    parseArgument? operand inBar s = none := by
  cases s with
  | nil => rfl
  | cons x rest => simpa [parseArgument?] using h

theorem Role.eq_of_isCall {role : Role} (h : role.isCall = true) :
    (∃ kind, role = .unary kind) ∨ ∃ order, role = .binary order := by
  cases role with
  | unary kind => exact .inl ⟨kind, rfl⟩
  | binary order => exact .inr ⟨order, rfl⟩
  | _ => cases h

theorem Role.nests_of_isCall {role : Role} (h : role.isCall = true) : role.nests = true := by
  rcases Role.eq_of_isCall h with ⟨_, rfl⟩ | ⟨_, rfl⟩ <;> rfl

/-- Only `text` takes verbatim text. -/
theorem parseUnary_of_markup {word : Word} {kind : UnaryKind} (role : word.role = .unary kind)
    {s : List Lexeme} (markup : kind = .text → ∀ body, s.head? ≠ some (.text body)) :
    parseUnary operand inBar word kind role s =
      match parseArgument? operand inBar s with
      | none => .pure (.noArgument word (by rw [role]; rfl)) s
      | some argument => ⟨.unary word kind role argument.value, argument.left, argument.le⟩ := by
  unfold parseUnary
  split
  · next body s => exact absurd rfl (markup rfl body)
  · rfl

/-- How the term goes on is decided by what follows its first operand and scripts. -/
theorem parseFraction_gives {given left : List Lexeme} {scripted : Parsed (Operand × Scripts) given}
    {base : Operand} {scripts : Scripts} (h : scripted.Gives (base, scripts) left)
    (next : left.head? ≠ some (.symbol .slash)) :
    (parseFraction operand room inBar scripted).Gives (.scripted base scripts) left := by
  obtain ⟨value, l, le⟩ := scripted
  obtain ⟨rfl, rfl⟩ := h
  cases l with
  | nil => exact ⟨rfl, rfl⟩
  | cons y s =>
    rw [parseFraction, if_neg (by simpa using next)]
    exact ⟨rfl, rfl⟩

theorem parseFraction_of_slash {given left : List Lexeme}
    {scripted : Parsed (Operand × Scripts) given} {base : Operand} {scripts : Scripts}
    (h : scripted.Gives (base, scripts) (.symbol .slash :: left))
    (ends : atOperandEnd inBar left = true) :
    (parseFraction operand room inBar scripted).Gives (.noDenominator base scripts)
      (.symbol .slash :: left) := by
  obtain ⟨value, l, le⟩ := scripted
  obtain ⟨rfl, rfl⟩ := h
  rw [parseFraction, if_pos rfl, parseArgument?_of_end ends]
  exact ⟨rfl, rfl⟩

theorem parseFraction_of_fraction {given m left : List Lexeme}
    {scripted : Parsed (Operand × Scripts) given} {base base' : Operand}
    {scripts scripts' : Scripts} (h : scripted.Gives (base, scripts) (.symbol .slash :: m))
    {argument : Parsed Operand m}
    (hs : parseArgument? operand inBar m = some argument)
    (hd : (parseScripted operand room inBar argument).Gives (base', scripts') left) :
    (parseFraction operand room inBar scripted).Gives (.fraction base scripts base' scripts')
      left := by
  obtain ⟨value, l, le⟩ := scripted
  obtain ⟨rfl, rfl⟩ := h
  rw [parseFraction, if_pos rfl, hs]
  simp only [Parsed.Gives, hd.1, hd.2, and_self]

theorem parseScripted_gives {given l left : List Lexeme} {parsed : Parsed Operand given}
    {base : Operand} {scripts : Scripts} (h : parsed.Gives base l)
    (hs : (parseScripts operand room inBar .empty l).Gives scripts left) :
    (parseScripted operand room inBar parsed).Gives (base, scripts) left := by
  obtain ⟨rfl, rfl⟩ := h
  obtain ⟨rfl, rfl⟩ := hs
  exact ⟨rfl, rfl⟩

mutual

theorem ReadsOperand.gives {room inBar s value left} :
    ReadsOperand room inBar s value left →
      ∃ x rest, s = x :: rest ∧ (parseOperand room inBar x rest).Gives value left
  | .number n => ⟨_, _, rfl, by cases room <;> exact ⟨rfl, rfl⟩⟩
  | .text body => ⟨_, _, rfl, by cases room <;> exact ⟨rfl, rfl⟩⟩
  | .character c => ⟨_, _, rfl, by cases room <;> exact ⟨rfl, rfl⟩⟩
  | .leaf word role => ⟨_, _, rfl, by rw [parseOperand_leaf role]; exact ⟨rfl, rfl⟩⟩
  | .keyword word role => ⟨_, _, rfl, by rw [parseOperand_keyword role]; exact ⟨rfl, rfl⟩⟩
  | .strayClosing word role =>
    ⟨_, _, rfl, by rw [parseOperand_strayClosing role]; exact ⟨rfl, rfl⟩⟩
  | .beyondLimit word role =>
    ⟨_, _, rfl, by rw [parseOperand, parseLeaf_nested role]; exact ⟨rfl, rfl⟩⟩
  | .group word role content close => by
    obtain ⟨hbody, hl⟩ := content.gives
    obtain ⟨hclosing, hleft⟩ := close.gives
    refine ⟨_, _, rfl, ?_⟩
    rw [parseOperand_nested (by rw [role]; rfl), parseNested_group _ role]
    subst hl
    simp only [Parsed.Gives, parseGroup, hbody, hclosing, hleft, and_self]
  | .loneBar word role alone => by
    refine ⟨_, _, rfl, ?_⟩
    rw [parseOperand_nested (by rw [role]; rfl), parseNested_bars _ role]
    simp [Parsed.Gives, parseBars, alone, Parsed.pure]
  | .bars word role paired content close => by
    obtain ⟨hbody, hl⟩ := content.gives
    obtain ⟨hclosing, hleft⟩ := close.gives
    refine ⟨_, _, rfl, ?_⟩
    rw [parseOperand_nested (by rw [role]; rfl), parseNested_bars _ role]
    subst hl
    simp only [Parsed.Gives, parseBars, paired, if_true, hbody, hclosing, hleft, and_self]
  | .function word role first more second => by
    obtain ⟨hscripts, hl⟩ := first.gives
    obtain ⟨argument, hs, hargument, hleft⟩ := parseArgument?_gives more second.gives
    refine ⟨_, _, rfl, ?_⟩
    rw [parseOperand_nested (by rw [role]; rfl), parseNested_function _ role]
    subst hl
    simp only [Parsed.Gives, parseFunction, hs, hscripts, hargument, hleft, and_self]
  | .functionAlone word role first ends => by
    obtain ⟨hscripts, hl⟩ := first.gives
    refine ⟨_, _, rfl, ?_⟩
    rw [parseOperand_nested (by rw [role]; rfl), parseNested_function _ role]
    subst hl
    simp only [Parsed.Gives, parseFunction, parseArgument?_of_end ends, hscripts, and_self]
  | .noArgument (s := s) word role ends => by
    refine ⟨_, _, rfl, ?_⟩
    rw [parseOperand_nested (Role.nests_of_isCall role)]
    rcases Role.eq_of_isCall role with ⟨kind, h⟩ | ⟨order, h⟩
    · have markup : kind = .text → ∀ body, s.head? ≠ some (.text body) := fun _ body hbody => by
        obtain ⟨rest, rfl⟩ := List.head?_eq_some_iff.1 hbody
        cases ends
      rw [parseNested_unary _ h]
      simp only [parseUnary_of_markup h markup, parseArgument?_of_end ends]
      exact ⟨rfl, rfl⟩
    · rw [parseNested_binary _ h, parseBinary, parseArgument?_of_end ends]
      exact ⟨rfl, rfl⟩
  | .verbatim word role body => by
    refine ⟨_, _, rfl, ?_⟩
    rw [parseOperand_nested (by rw [role]; rfl), parseNested_unary _ role]
    exact ⟨rfl, rfl⟩
  | .unary word kind role more markup first => by
    obtain ⟨argument, hs, hargument, hleft⟩ := parseArgument?_gives more first.gives
    refine ⟨_, _, rfl, ?_⟩
    rw [parseOperand_nested (by rw [role]; rfl), parseNested_unary _ role]
    simp only [parseUnary_of_markup role markup, hs, Parsed.Gives, hargument, hleft, and_self]
  | .noSecond word order role more first ends => by
    obtain ⟨argument, hs, hargument, hl⟩ := parseArgument?_gives more first.gives
    refine ⟨_, _, rfl, ?_⟩
    rw [parseOperand_nested (by rw [role]; rfl), parseNested_binary _ role]
    subst hl
    simp only [Parsed.Gives, parseBinary, hs, parseArgument?_of_end ends, hargument, and_self]
  | .binary word order role more first more' second => by
    obtain ⟨argument, hs, hargument, hl⟩ := parseArgument?_gives more first.gives
    subst hl
    obtain ⟨argument', hs', hargument', hleft⟩ := parseArgument?_gives more' second.gives
    refine ⟨_, _, rfl, ?_⟩
    rw [parseOperand_nested (by rw [role]; rfl), parseNested_binary _ role]
    simp only [Parsed.Gives, parseBinary, hs, hs', hargument, hargument', hleft, and_self]

theorem ReadsScripts.gives {room inBar slots s value left} :
    ReadsScripts room inBar slots s value left →
      (parseScripts (parseOperand room) room inBar slots s).Gives value left
  | .complete next => by
    unfold parseScripts
    split
    · exact ⟨rfl, rfl⟩
    · next x s =>
      rw [next x rfl]
      exact ⟨rfl, rfl⟩
  | .noOperand (s := s) marker ends => by
    rw [parseScripts, Marker.marker?_word]
    cases s with
    | nil => exact ⟨rfl, rfl⟩
    | cons y rest =>
      rw [atOperandEnd_cons] at ends
      simp only [ends, if_true]
      exact ⟨rfl, rfl⟩
  | .limit (s := s) marker more full => by
    rw [parseScripts, Marker.marker?_word]
    cases s with
    | nil => cases more
    | cons y rest =>
      rw [atOperandEnd_cons] at more
      simp only [more, full, if_true]
      exact ⟨rfl, rfl⟩
  | .cons marker more free first rest => by
    obtain ⟨y, s, rfl, hoperand, hl⟩ := first.gives
    subst hl
    obtain ⟨hscripts, hleft⟩ := rest.gives
    rw [atOperandEnd_cons] at more
    rw [parseScripts, Marker.marker?_word]
    simp only [more, free, Parsed.Gives, Bool.false_eq_true, if_false, hoperand, hscripts, hleft,
      and_self]

theorem ReadsTerm.gives {room inBar s value left} :
    ReadsTerm room inBar s value left →
      ∃ x rest, s = x :: rest ∧
        (parseTerm (parseOperand room) room inBar x rest).Gives value left
  | .scripted first second next => by
    obtain ⟨x, rest, rfl, hbase⟩ := first.gives
    exact ⟨x, rest, rfl, parseFraction_gives (parseScripted_gives hbase second.gives) next⟩
  | .noDenominator first second ends => by
    obtain ⟨x, rest, rfl, hbase⟩ := first.gives
    exact ⟨x, rest, rfl, parseFraction_of_slash (parseScripted_gives hbase second.gives) ends⟩
  | .fraction first second more third fourth => by
    obtain ⟨x, rest, rfl, hbase⟩ := first.gives
    obtain ⟨argument, hs, hargument⟩ := parseArgument?_gives more third.gives
    exact ⟨x, rest, rfl, parseFraction_of_fraction (parseScripted_gives hbase second.gives) hs
      (parseScripted_gives hargument fourth.gives)⟩

theorem ReadsBody.gives {room inBar inGroup s value left} :
    ReadsBody room inBar inGroup s value left →
      (parseBody (parseOperand room) room inBar inGroup s).Gives value left
  | .nil ends => by
    rw [parseBody.eq_def]
    split
    · exact ⟨rfl, rfl⟩
    · rw [bodyEnds] at ends
      rw [if_pos ends]
      exact ⟨rfl, rfl⟩
  | .cons goes first rest => by
    obtain ⟨x, s, rfl, hterm, hl⟩ := first.gives
    subst hl
    obtain ⟨hterms, hleft⟩ := rest.gives
    rw [parseBody, if_neg (by simpa [bodyEnds] using goes)]
    simp only [Parsed.Gives, hterm, hterms, hleft, and_self]

end

/-! ## Formulas -/

theorem ReadsBody.left_ends {room inBar inGroup s terms left} :
    ReadsBody room inBar inGroup s terms left → bodyEnds inBar inGroup left = true
  | .nil ends => ends
  | .cons _ _ rest => rest.left_ends

/-- Outside of all groups nothing is left. -/
theorem ReadsBody.left_eq_nil {room inBar s terms left}
    (h : ReadsBody room inBar false s terms left) : left = [] := by
  have ends := h.left_ends
  cases left with
  | nil => rfl
  | cons x s => cases ends

/-- The formula that lexemes make up is the one that has a derivation. -/
theorem parse_eq_iff {s : List Lexeme} {formula : List Term} :
    parse s = formula ↔ ReadsBody maxDepth false false s formula [] := by
  constructor
  · rintro rfl
    have h : ReadsBody maxDepth false false s _ _ :=
      parseBody_reads (parseOperand_reads maxDepth) false s
    rwa [h.left_eq_nil] at h
  · exact fun h => h.gives.1

theorem parse_reads (s : List Lexeme) : ReadsBody maxDepth false false s (parse s) [] :=
  parse_eq_iff.1 rfl

end FormulaMarkup.Formula
