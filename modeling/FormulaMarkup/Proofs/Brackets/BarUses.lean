import FormulaMarkup.Proofs.Brackets.Bars

/-!
# What becomes of every bar

Each bar of a formula opens or closes a group of bars, or it stands alone. One that opens a group is
closed by the first bar that belongs to it, and none belongs to one that stands alone.
-/

namespace FormulaMarkup

/-! ## The bars of a formula -/

mutual

/-- The bars of an operand, each with the one that closes it. Those that stand alone have none. The
first lexeme of the operand is at place `i`. -/
def Operand.barUses : Operand → (i : Nat) → List (Nat × Option Nat)
  | .number _, _ | .text _, _ | .character _, _ | .leaf .., _ | .keyword .., _ | .strayClosing .., _
  | .noArgument .., _ | .verbatim .., _ => []
  | .beyondLimit word _, i => if word.role = .leftRight then [(i, none)] else []
  | .loneBar .., i => [(i, none)]
  | .group _ _ body _, i => Term.barUsesOfList body (i + 1)
  | .bars _ _ body closing, i =>
    (i, closing.map fun _ => i + 1 + (Term.yieldOfList body).length) ::
      Term.barUsesOfList body (i + 1)
  | .function _ _ scripts argument, i =>
    scripts.barUses (i + 1) ++ argument.barUses (i + 1 + scripts.yield.length)
  | .functionAlone _ _ scripts, i => scripts.barUses (i + 1)
  | .unary _ _ _ argument, i => argument.barUses (i + 1)
  | .noSecond _ _ _ first, i => first.barUses (i + 1)
  | .binary _ _ _ first second, i =>
    first.barUses (i + 1) ++ second.barUses (i + 1 + first.yield.length)

def Scripts.barUses : Scripts → (i : Nat) → List (Nat × Option Nat)
  | .done _, _ => []
  | .cons _ operand more, i =>
    operand.barUses (i + 1) ++ more.barUses (i + 1 + operand.yield.length)

def Term.barUses : Term → (i : Nat) → List (Nat × Option Nat)
  | .scripted base scripts, i | .noDenominator base scripts, i =>
    base.barUses i ++ scripts.barUses (i + base.yield.length)
  | .fraction base scripts base' scripts', i =>
    let j := i + base.yield.length + scripts.yield.length + 1
    base.barUses i ++ (scripts.barUses (i + base.yield.length) ++
      (base'.barUses j ++ scripts'.barUses (j + base'.yield.length)))

def Term.barUsesOfList : List Term → (i : Nat) → List (Nat × Option Nat)
  | [], _ => []
  | term :: terms, i => term.barUses i ++ Term.barUsesOfList terms (i + term.yield.length)

end

def Formula.barUses (formula : List Term) : List (Nat × Option Nat) := Term.barUsesOfList formula 0

def Lexeme.isBar (x : Lexeme) : Bool := x.role? = some .leftRight

namespace Formula

/-- The places of a bar and of the one that closes it. -/
def usePlaces (use : Nat × Option Nat) : List Nat := use.1 :: use.2.toList

def usesPlaces (uses : List (Nat × Option Nat)) : List Nat := uses.flatMap usePlaces

/-- The places of the bars among lexemes, of which the first is at place `i`. -/
def barPlaces (i : Nat) (s : List Lexeme) : List Nat :=
  ((s.zipIdx i).filter fun x => Lexeme.isBar x.1).map Prod.snd

/-! ## Every bar is used once -/

section

variable {i j : Nat} {x : Lexeme} {s t : List Lexeme} {word : Word}
  {uses uses' : List (Nat × Option Nat)}

theorem barPlaces_append (i : Nat) (s t : List Lexeme) :
    barPlaces i (s ++ t) = barPlaces i s ++ barPlaces (i + s.length) t := by
  rw [barPlaces, List.zipIdx_append, List.filter_append, List.map_append]
  rfl

theorem barPlaces_other (h : Lexeme.isBar x = false) :
    barPlaces i (x :: s) = barPlaces (i + 1) s := by
  rw [barPlaces, List.zipIdx_cons, List.filter_cons_of_neg (by simp [h])]
  rfl

theorem barPlaces_bar (role : word.role = .leftRight) :
    barPlaces i (.symbol word :: s) = i :: barPlaces (i + 1) s := by
  have hbar : Lexeme.isBar (.symbol word) = true := by
    simp [Lexeme.isBar, Lexeme.role?_symbol, role]
  rw [barPlaces, List.zipIdx_cons, List.filter_cons_of_pos (by exact hbar)]
  rfl

theorem mem_barPlaces : j ∈ barPlaces 0 s ↔ ∃ x ∈ s[j]?, x.role? = some .leftRight := by
  simp [barPlaces, List.mk_mem_zipIdx_iff_le_and_getElem?_sub, Lexeme.isBar]

theorem nodup_barPlaces (i : Nat) (s : List Lexeme) : (barPlaces i s).Nodup := by
  have hplaces : ((s.zipIdx i).map Prod.snd).Nodup := by
    rw [List.zipIdx_map_snd]
    exact List.nodup_range'
  exact (List.filter_sublist.map Prod.snd).nodup hplaces

/-- The uses are those of the bars of a part that begins at place `i`. -/
def UsesBars (uses : List (Nat × Option Nat)) (i : Nat) (s : List Lexeme) : Prop :=
  (usesPlaces uses).Perm (barPlaces i s)

namespace UsesBars

theorem none : UsesBars [] i [] := List.Perm.nil

theorem append (h : UsesBars uses i s) (h' : UsesBars uses' (i + s.length) t) :
    UsesBars (uses ++ uses') i (s ++ t) := by
  rw [UsesBars, usesPlaces, List.flatMap_append, barPlaces_append]
  exact List.Perm.append h h'

theorem cons (hx : Lexeme.isBar x = false) (h : UsesBars uses (i + 1) s) :
    UsesBars uses i (x :: s) := by
  rw [UsesBars, barPlaces_other hx]
  exact h

theorem cons_word {role : Role} (hword : word.role = role) (hrole : role ≠ .leftRight)
    (h : UsesBars uses (i + 1) s) : UsesBars uses i (.symbol word :: s) :=
  h.cons (by simpa [Lexeme.isBar, Lexeme.role?_symbol, hword] using hrole)

/-- A word of a kind that no bar is of. -/
theorem cons_kind (kind : Role → Bool) (hword : kind word.role = true)
    (hkind : kind .leftRight = false) (h : UsesBars uses (i + 1) s) :
    UsesBars uses i (.symbol word :: s) := by
  refine h.cons_word rfl fun hrole => ?_
  rw [hrole, hkind] at hword
  cases hword

theorem alone (role : word.role = .leftRight) (h : UsesBars uses (i + 1) s) :
    UsesBars ((i, .none) :: uses) i (.symbol word :: s) := by
  rw [UsesBars, barPlaces_bar role]
  exact List.Perm.cons i h

theorem paired {word' : Word} (role : word.role = .leftRight) (role' : word'.role = .leftRight)
    (h : UsesBars uses (i + 1) s) :
    UsesBars ((i, some (i + 1 + s.length)) :: uses) i (.symbol word :: (s ++ [.symbol word'])) := by
  rw [UsesBars, barPlaces_bar role, barPlaces_append, barPlaces_bar role']
  have hlast : ((i + 1 + s.length) :: usesPlaces uses).Perm
      (barPlaces (i + 1) s ++ [i + 1 + s.length]) :=
    (List.Perm.cons _ h).trans (List.perm_append_singleton _ _).symm
  exact List.Perm.cons i hlast

end UsesBars

end

end Formula

open Formula

mutual

theorem Operand.usesBars : (operand : Operand) → (i : Nat) →
    UsesBars (operand.barUses i) i operand.yield
  | .number _, _ | .text _, _ | .character _, _ => UsesBars.none.cons rfl
  | .leaf _ role, _ => UsesBars.none.cons_kind Role.isLeaf role rfl
  | .keyword _ role, _ => UsesBars.none.cons_word role nofun
  | .strayClosing _ role, _ => UsesBars.none.cons_word role nofun
  | .noArgument _ role, _ => UsesBars.none.cons_kind Role.isCall role rfl
  | .verbatim _ role _, _ => (UsesBars.none.cons rfl).cons_word role nofun
  | .beyondLimit word _, i => by
    rw [Operand.barUses]
    split
    · next role => exact UsesBars.none.alone role
    · next role => exact UsesBars.none.cons_word rfl role
  | .loneBar _ role, _ => UsesBars.none.alone role
  | .group _ role body closing, i => by
    have hbody := Term.usesBarsOfList body (i + 1)
    have hclosing : ∀ j, UsesBars [] j (Word.closingYield closing) := by
      cases closing with
      | none => exact fun _ => UsesBars.none
      | some word => exact fun _ => UsesBars.none.cons_word word.2 nofun
    have hgroup := (hbody.append (hclosing _)).cons_word role nofun
    rwa [List.append_nil] at hgroup
  | .bars _ role body closing, i => by
    have hbody := Term.usesBarsOfList body (i + 1)
    cases closing with
    | none =>
      rw [Operand.yield, Word.closingYield, List.append_nil]
      exact hbody.alone role
    | some word => exact hbody.paired role word.2
  | .function _ role scripts argument, i =>
    ((Scripts.usesBars scripts (i + 1)).append (Operand.usesBars argument _)).cons_word role nofun
  | .functionAlone _ role scripts, i => (Scripts.usesBars scripts (i + 1)).cons_word role nofun
  | .unary _ _ role argument, i => (Operand.usesBars argument (i + 1)).cons_word role nofun
  | .noSecond _ _ role first, i => (Operand.usesBars first (i + 1)).cons_word role nofun
  | .binary _ _ role first second, i =>
    ((Operand.usesBars first (i + 1)).append (Operand.usesBars second _)).cons_word role nofun

theorem Scripts.usesBars : (scripts : Scripts) → (i : Nat) →
    UsesBars (scripts.barUses i) i scripts.yield
  | .done _, _ => UsesBars.none
  | .cons marker operand more, i => by
    have hmarker : Lexeme.isBar (.symbol marker.word) = false := by cases marker <;> rfl
    exact ((Operand.usesBars operand (i + 1)).append (Scripts.usesBars more _)).cons hmarker

theorem Term.usesBars : (term : Term) → (i : Nat) → UsesBars (term.barUses i) i term.yield
  | .scripted base scripts, i | .noDenominator base scripts, i =>
    (Operand.usesBars base i).append (Scripts.usesBars scripts _)
  | .fraction base scripts base' scripts', i =>
    (Operand.usesBars base i).append ((Scripts.usesBars scripts _).append
      (((Operand.usesBars base' _).append (Scripts.usesBars scripts' _)).cons rfl))

theorem Term.usesBarsOfList : (terms : List Term) → (i : Nat) →
    UsesBars (Term.barUsesOfList terms i) i (Term.yieldOfList terms)
  | [], _ => UsesBars.none
  | term :: terms, i => (Term.usesBars term i).append (Term.usesBarsOfList terms _)

end

namespace Formula

/-! ## Between bars -/

/-- The place is between two bars that make up a group. -/
def BetweenBars (uses : List (Nat × Option Nat)) (place : Nat) : Prop :=
  ∃ use ∈ uses, use.1 < place ∧ ∃ j ∈ use.2, place < j

theorem betweenBars_append {uses uses' : List (Nat × Option Nat)} {place : Nat} :
    BetweenBars (uses ++ uses') place ↔ BetweenBars uses place ∨ BetweenBars uses' place := by
  simp only [BetweenBars, List.mem_append, or_and_right, exists_or]

/-- Before its first place and behind its last one a part has nothing between bars. -/
theorem UsesBars.not_betweenBars {uses : List (Nat × Option Nat)} {i place : Nat}
    {s : List Lexeme} (h : UsesBars uses i s) (hplace : place ≤ i ∨ i + s.length ≤ place) :
    ¬ BetweenBars uses place := by
  rintro ⟨⟨k, j⟩, huse, hfirst, j', rfl, hsecond⟩
  have hbounds : ∀ k' ∈ usePlaces (k, some j'), i ≤ k' ∧ k' < i + s.length := by
    intro k' hk'
    have hmem := h.mem_iff.1 (List.mem_flatMap.2 ⟨_, huse, hk'⟩)
    obtain ⟨x, hx, -⟩ : ∃ x, (x, k') ∈ s.zipIdx i ∧ Lexeme.isBar x = true := by
      simpa [barPlaces] using hmem
    exact ⟨List.le_snd_of_mem_zipIdx hx, List.snd_lt_add_of_mem_zipIdx hx⟩
  obtain ⟨hi, -⟩ := hbounds k List.mem_cons_self
  obtain ⟨-, hj⟩ := hbounds j' (List.mem_cons_of_mem _ List.mem_cons_self)
  simp only at hfirst
  omega

/-- A place between two terms is not between bars that a part of the formula uses. -/
theorem not_betweenBars_between (terms more : List Term) :
    ¬ BetweenBars (barUses (terms ++ more)) (Term.yieldOfList terms).length := by
  have huses : ∀ i, Term.barUsesOfList (terms ++ more) i = Term.barUsesOfList terms i ++
      Term.barUsesOfList more (i + (Term.yieldOfList terms).length) := by
    induction terms with
    | nil => exact fun _ => rfl
    | cons term terms ih =>
      intro i
      rw [List.cons_append, Term.barUsesOfList, Term.barUsesOfList, ih, List.append_assoc,
        Term.yieldOfList, List.length_append, Nat.add_assoc]
  rw [barUses, huses, betweenBars_append]
  exact not_or.2 ⟨(Term.usesBarsOfList terms 0).not_betweenBars (.inr (by omega)),
    (Term.usesBarsOfList more _).not_betweenBars (.inl (by omega))⟩

end Formula

/-! ## Which bar closes a group -/

mutual

theorem Operand.limitPlaces_eq_nil : (operand : Operand) → Shallow operand.notices → (i : Nat) →
    operand.limitPlaces i = []
  | .number _, _, _ | .text _, _, _ | .character _, _, _ | .leaf .., _, _ | .keyword .., _, _
  | .strayClosing .., _, _ | .loneBar .., _, _ | .noArgument .., _, _ | .verbatim .., _, _ => rfl
  | .beyondLimit word _, h, _ => absurd List.mem_cons_self (h word.spelling)
  | .group _ _ body _, h, _ | .bars _ _ body _, h, _ =>
    Term.limitPlacesOfList_eq_nil body (Shallow.append.1 h).1 _
  | .function _ _ scripts argument, h, _ =>
    List.append_eq_nil_iff.2 ⟨Scripts.limitPlaces_eq_nil scripts (Shallow.append.1 h).1 _,
      Operand.limitPlaces_eq_nil argument (Shallow.append.1 h).2 _⟩
  | .functionAlone _ _ scripts, h, _ =>
    Scripts.limitPlaces_eq_nil scripts (Shallow.append.1 h).1 _
  | .unary _ _ _ argument, h, _ => Operand.limitPlaces_eq_nil argument h _
  | .noSecond _ _ _ first, h, _ => Operand.limitPlaces_eq_nil first (Shallow.append.1 h).1 _
  | .binary _ _ _ first second, h, _ =>
    List.append_eq_nil_iff.2 ⟨Operand.limitPlaces_eq_nil first (Shallow.append.1 h).1 _,
      Operand.limitPlaces_eq_nil second (Shallow.append.1 h).2 _⟩

theorem Scripts.limitPlaces_eq_nil : (scripts : Scripts) → Shallow scripts.notices → (i : Nat) →
    scripts.limitPlaces i = []
  | .done _, _, _ => rfl
  | .cons _ operand more, h, _ =>
    List.append_eq_nil_iff.2 ⟨Operand.limitPlaces_eq_nil operand (Shallow.append.1 h).1 _,
      Scripts.limitPlaces_eq_nil more (Shallow.append.1 h).2 _⟩

theorem Term.limitPlaces_eq_nil : (term : Term) → Shallow term.notices → (i : Nat) →
    term.limitPlaces i = []
  | .scripted base scripts, h, _ =>
    List.append_eq_nil_iff.2 ⟨Operand.limitPlaces_eq_nil base (Shallow.append.1 h).1 _,
      Scripts.limitPlaces_eq_nil scripts (Shallow.append.1 h).2 _⟩
  | .noDenominator base scripts, h, _ => by
    obtain ⟨hbase, h⟩ := Shallow.append.1 h
    exact List.append_eq_nil_iff.2 ⟨Operand.limitPlaces_eq_nil base hbase _,
      Scripts.limitPlaces_eq_nil scripts (Shallow.append.1 h).1 _⟩
  | .fraction base scripts base' scripts', h, _ => by
    obtain ⟨hbase, h⟩ := Shallow.append.1 h
    obtain ⟨hscripts, h⟩ := Shallow.append.1 h
    obtain ⟨hbase', hscripts'⟩ := Shallow.append.1 h
    simp [Term.limitPlaces, Operand.limitPlaces_eq_nil base hbase,
      Scripts.limitPlaces_eq_nil scripts hscripts, Operand.limitPlaces_eq_nil base' hbase',
      Scripts.limitPlaces_eq_nil scripts' hscripts']

theorem Term.limitPlacesOfList_eq_nil : (terms : List Term) →
    Shallow (Term.noticesOfList terms) → (i : Nat) → Term.limitPlacesOfList terms i = []
  | [], _, _ => rfl
  | term :: terms, h, _ =>
    List.append_eq_nil_iff.2 ⟨Term.limitPlaces_eq_nil term (Shallow.append.1 h).1 _,
      Term.limitPlacesOfList_eq_nil terms (Shallow.append.1 h).2 _⟩

end

namespace Formula

/-- The use of a bar at place `k`: the first bar that belongs to it closes its group, or there is
none, and it stands alone. -/
inductive BarUse (s : List Lexeme) : Nat × Option Nat → Prop where
  | alone (k : Nat) (h : ¬ ∃ between bar left, BarAfter (s.drop (k + 1)) between bar left) :
    BarUse s (k, none)
  | paired (k : Nat) {between : List Lexeme} {bar : WordOf .leftRight} {left : List Lexeme}
    (h : FirstBarAfter (s.drop (k + 1)) between bar left) :
    BarUse s (k, some (k + 1 + between.length))

/-- The part from place `i` of `s` on has its bars used as they should. -/
def BarsUsed (s : List Lexeme) (uses : List (Nat × Option Nat)) : Prop := ∀ use ∈ uses, BarUse s use

section

variable {i : Nat} {s left whole : List Lexeme}

theorem drop_of_append {part : List Lexeme} (hi : whole.drop i = s) (h : part ++ left = s) :
    whole.drop (i + part.length) = left := by
  rw [← List.drop_drop, hi, ← h, List.drop_left]

theorem drop_of_cons {x : Lexeme} (hi : whole.drop i = x :: s) : whole.drop (i + 1) = s :=
  drop_of_append hi (List.singleton_append)

end

namespace BarsUsed

variable {uses uses' : List (Nat × Option Nat)}

theorem none : BarsUsed s [] := nofun

theorem append (h : BarsUsed s uses) (h' : BarsUsed s uses') : BarsUsed s (uses ++ uses') :=
  List.forall_mem_append.2 ⟨h, h'⟩

theorem cons {use : Nat × Option Nat} (h : BarUse s use) (h' : BarsUsed s uses) :
    BarsUsed s (use :: uses) :=
  List.forall_mem_cons.2 ⟨h, h'⟩

end BarsUsed

mutual

theorem ReadsOperand.barsUsed {whole room inBar s operand left} :
    ReadsOperand room inBar s operand left → Shallow operand.notices → (i : Nat) →
      whole.drop i = s → BarsUsed whole (operand.barUses i)
  | .number _, _, _, _ | .text _, _, _, _ | .character _, _, _, _ | .leaf _ _, _, _, _
  | .keyword _ _, _, _, _ | .strayClosing _ _, _, _, _ | .noArgument _ _ _, _, _, _
  | .verbatim _ _ _, _, _, _ => .none
  | .beyondLimit word _, hn, _, _ => absurd List.mem_cons_self (hn word.spelling)
  | .group _ _ content _, hn, i, hi =>
    content.barsUsed (Shallow.append.1 hn).1 (i + 1) (drop_of_cons hi)
  | .loneBar word role alone, _, i, hi => by
    refine .cons (.alone i fun hbar => ?_) .none
    rw [drop_of_cons hi, ← hasClosingBar_iff, alone] at hbar
    cases hbar
  | .bars word role paired content close, hn, i, hi => by
    have hi' := drop_of_cons hi
    have hbody := content.barsUsed (Shallow.append.1 hn).1 (i + 1) hi'
    have hplaces := Term.limitPlacesOfList_eq_nil _ (Shallow.append.1 hn).1 1
    obtain ⟨between, bar, rest, hfirst⟩ := exists_firstBarAfter paired
    obtain rfl := hfirst.eq
    obtain ⟨hyield, rfl, -⟩ :=
      content.closed_of_extent close hfirst.extent_eq (by simp [hplaces])
    rw [← hi'] at hfirst
    rw [Operand.barUses, Option.map_some, hyield]
    exact .cons (.paired i hfirst) hbody
  | .function word role first more second, hn, i, hi => by
    have hi' := drop_of_cons hi
    exact (first.barsUsed (Shallow.append.1 hn).1 _ hi').append
      (second.barsUsed (Shallow.append.1 hn).2 _ (drop_of_append hi' first.yield_append))
  | .functionAlone _ _ first _, hn, i, hi =>
    first.barsUsed (Shallow.append.1 hn).1 _ (drop_of_cons hi)
  | .unary _ _ _ _ _ first, hn, i, hi => first.barsUsed hn _ (drop_of_cons hi)
  | .noSecond _ _ _ _ first _, hn, i, hi =>
    first.barsUsed (Shallow.append.1 hn).1 _ (drop_of_cons hi)
  | .binary _ _ _ _ first _ second, hn, i, hi => by
    have hi' := drop_of_cons hi
    exact (first.barsUsed (Shallow.append.1 hn).1 _ hi').append
      (second.barsUsed (Shallow.append.1 hn).2 _ (drop_of_append hi' first.yield_append))

theorem ReadsScripts.barsUsed {whole room inBar slots s scripts left} :
    ReadsScripts room inBar slots s scripts left → Shallow scripts.notices → (i : Nat) →
      whole.drop i = s → BarsUsed whole (scripts.barUses i)
  | .complete _, _, _, _ | .noOperand _ _, _, _, _ | .limit _ _ _, _, _, _ => .none
  | .cons _ _ _ first rest, hn, i, hi => by
    have hi' := drop_of_cons hi
    exact (first.barsUsed (Shallow.append.1 hn).1 _ hi').append
      (rest.barsUsed (Shallow.append.1 hn).2 _ (drop_of_append hi' first.yield_append))

theorem ReadsTerm.barsUsed {whole room inBar s term left} :
    ReadsTerm room inBar s term left → Shallow term.notices → (i : Nat) →
      whole.drop i = s → BarsUsed whole (term.barUses i)
  | .scripted first second _, hn, i, hi =>
    (first.barsUsed (Shallow.append.1 hn).1 _ hi).append
      (second.barsUsed (Shallow.append.1 hn).2 _ (drop_of_append hi first.yield_append))
  | .noDenominator first second _, hn, i, hi => by
    obtain ⟨hfirst, hn⟩ := Shallow.append.1 hn
    exact (first.barsUsed hfirst _ hi).append
      (second.barsUsed (Shallow.append.1 hn).1 _ (drop_of_append hi first.yield_append))
  | .fraction first second _ third fourth, hn, i, hi => by
    obtain ⟨hfirst, hn⟩ := Shallow.append.1 hn
    obtain ⟨hsecond, hn⟩ := Shallow.append.1 hn
    obtain ⟨hthird, hfourth⟩ := Shallow.append.1 hn
    have hscripts := drop_of_append hi first.yield_append
    have hslash := drop_of_append hscripts second.yield_append
    have hdenominator := drop_of_cons hslash
    have hlast := drop_of_append hdenominator third.yield_append
    exact (first.barsUsed hfirst _ hi).append ((second.barsUsed hsecond _ hscripts).append
      ((third.barsUsed hthird _ hdenominator).append (fourth.barsUsed hfourth _ hlast)))

theorem ReadsBody.barsUsed {whole room inBar inGroup s terms left} :
    ReadsBody room inBar inGroup s terms left → Shallow (Term.noticesOfList terms) → (i : Nat) →
      whole.drop i = s → BarsUsed whole (Term.barUsesOfList terms i)
  | .nil _, _, _, _ => .none
  | .cons _ first rest, hn, i, hi =>
    (first.barsUsed (Shallow.append.1 hn).1 _ hi).append
      (rest.barsUsed (Shallow.append.1 hn).2 _ (drop_of_append hi first.yield_append))

end

/-- Unless a level is too deep, each bar is used once, and as it should. -/
theorem usesBars_parse {s : List Lexeme} (hn : Shallow (Term.noticesOfList (parse s))) :
    UsesBars (barUses (parse s)) 0 s ∧ BarsUsed s (barUses (parse s)) := by
  have huses := Term.usesBarsOfList (parse s) 0
  rw [yieldOfList_parse] at huses
  exact ⟨huses, (parse_reads s).barsUsed hn 0 rfl⟩

end Formula

end FormulaMarkup
