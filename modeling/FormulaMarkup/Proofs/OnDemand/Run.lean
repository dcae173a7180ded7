import FormulaMarkup.Proofs.Grammar.Reader
import FormulaMarkup.Proofs.OnDemand.Outline
import FormulaMarkup.Proofs.Token.Lookahead

/-!
# Steps of the reader on demand

What a step gives depends on where its state stands: which lexemes are left, how many more levels
may open, and what closes the innermost group. From one state to a later one every token is taken
once, and what happens is sound and told in full. Runs are put together from steps by these three.
-/

namespace FormulaMarkup.OnDemand

open Formula

/-! ## What is kept -/

/-- What has to be true of an event. -/
def Event.Sound : Event → Prop
  | operand site inBar groups item => ∃ token, item = .token token ∧
      (token.lexeme.role? = some .closeBracket → site = .term false ∧ groups = 0) ∧
      (token.lexeme.role? = some .leftRight → inBar = false)
  | attach sub sup => sub = true ∨ sup = true
  | round before after => before < after

namespace Reader

def lexemes (r : Reader) : List Lexeme := r.ahead.remaining.map (·.lexeme)

/-- What has been taken and what is left. -/
def items (r : Reader) : List TokenItem := r.taken ++ r.ahead.remaining.map .token

/-- What has happened so far. -/
def outline (r : Reader) : List Outline := r.events.reverse.map Event.outline

/-- The state stands in front of `s`, and `room` more levels may open. -/
structure At (r : Reader) (room : Nat) (inBar : Bool) (groups : Nat) (s : List Lexeme) : Prop where
  depth : r.depth + room = maxDepth
  inBar : r.inBar = inBar
  groups : r.groups = groups
  lexemes : r.lexemes = s

/-- From one state to a later one every token is taken once, and what happens is sound: it is what
is told. -/
structure Leads (r r' : Reader) (told : List Outline) : Prop where
  items : r'.items = r.items
  sound : (∀ event ∈ r.events, event.Sound) → ∀ event ∈ r'.events, event.Sound
  outline : r'.outline = r.outline ++ told

variable {r r' r'' : Reader} {room groups : Nat} {inBar : Bool} {s : List Lexeme}
  {told told' : List Outline}

theorem Leads.refl (r : Reader) : r.Leads r [] := ⟨rfl, fun h => h, (List.append_nil _).symm⟩

theorem Leads.trans (h : r.Leads r' told) (h' : r'.Leads r'' told') :
    r.Leads r'' (told ++ told') :=
  ⟨h'.items.trans h.items, fun hr => h'.sound (h.sound hr),
    by rw [h'.outline, h.outline, List.append_assoc]⟩

theorem outline_record (r : Reader) (event : Event) :
    { r with events := event :: r.events }.outline = r.outline ++ [event.outline] := by
  rw [outline, List.reverse_cons, List.map_append]
  rfl

theorem Leads.record (h : r.Leads r' told) {event : Event} (hevent : event.Sound) :
    r.Leads { r' with events := event :: r'.events } (told ++ [event.outline]) :=
  ⟨h.items, fun hr => List.forall_mem_cons.2 ⟨hevent, h.sound hr⟩,
    by rw [outline_record, h.outline, List.append_assoc]⟩

theorem At.record (h : r.At room inBar groups s) (event : Event) :
    { r with events := event :: r.events }.At room inBar groups s :=
  ⟨h.depth, h.inBar, h.groups, h.lexemes⟩

theorem length_items (r : Reader) : r.items.length = r.taken.length + r.lexemes.length := by
  simp [items, lexemes]

/-- The tokens in front of which a state stands. -/
theorem At.exists_token {x : Lexeme} (h : r.At room inBar groups (x :: s)) :
    ∃ token rest, r.ahead.remaining = token :: rest ∧ token.lexeme = x ∧
      rest.map (·.lexeme) = s :=
  List.map_eq_cons_iff.1 h.lexemes

end Reader

/-! ## Steps one after another -/

namespace Run

/-- In front of `s` the run gives the value and ends in front of `left`, with `told` on its way. -/
def Reads {α : Type} (room : Nat) (inBar : Bool) (groups : Nat) (m : Run α) (s : List Lexeme)
    (value : α) (left : List Lexeme) (told : List Outline) : Prop :=
  ∀ r : Reader, r.At room inBar groups s →
    ∃ r' : Reader, m r = some (value, r') ∧ r'.At room inBar groups left ∧ r.Leads r' told

variable {α β : Type} {room groups : Nat} {inBar : Bool} {m : Run α} {s l left : List Lexeme}
  {x : Lexeme} {a : α} {b : β} {told told' : List Outline}

theorem bind_eq {f : α → Run β} {r r' : Reader} (h : m r = some (a, r')) :
    (m >>= f) r = f a r' := by
  change (m r).bind (fun p => f p.1 p.2) = f a r'
  rw [h]
  rfl

namespace Reads

theorem pure : Reads room inBar groups (pure a) s a s [] :=
  fun r hr => ⟨r, rfl, hr, .refl r⟩

theorem bind {f : α → Run β} (hm : Reads room inBar groups m s a l told)
    (hf : Reads room inBar groups (f a) l b left told') :
    Reads room inBar groups (m >>= f) s b left (told ++ told') := by
  intro r hr
  obtain ⟨r₁, hrun₁, hat₁, hlead₁⟩ := hm r hr
  obtain ⟨r₂, hrun₂, hat₂, hlead₂⟩ := hf r₁ hat₁
  exact ⟨r₂, (bind_eq hrun₁).trans hrun₂, hat₂, hlead₁.trans hlead₂⟩

/-- A run goes on after a step that tells nothing. -/
theorem after {f : α → Run β} (hm : Reads room inBar groups m s a l [])
    (hf : Reads room inBar groups (f a) l b left told) :
    Reads room inBar groups (m >>= f) s b left told :=
  hm.bind hf

/-- Nothing more is told after a step. -/
theorem before {f : α → Run β} (hm : Reads room inBar groups m s a l told)
    (hf : Reads room inBar groups (f a) l b left []) :
    Reads room inBar groups (m >>= f) s b left told := by
  rw [← List.append_nil told]
  exact hm.bind hf

theorem andReturn {f : α → β} (hm : Reads room inBar groups m s a left told) :
    Reads room inBar groups (m >>= fun x => Pure.pure (f x)) s (f a) left told :=
  hm.before .pure

/-- There is no more room than levels may be open. -/
theorem of_room_le (h : room ≤ maxDepth → Reads room inBar groups m s a left told) :
    Reads room inBar groups m s a left told :=
  fun r hr => h (Nat.le.intro ((Nat.add_comm _ _).trans hr.depth)) r hr

/-- A level deeper there is room for one level less. -/
theorem nested (hm : Reads room inBar groups m s a left told) :
    Reads (room + 1) inBar groups
      (do
        enter
        let value ← m
        leave
        return value) s a left told := by
  intro r hr
  have hdepth := hr.depth
  have hinner : { r with depth := r.depth + 1 }.At room inBar groups s :=
    ⟨by dsimp only; omega, hr.inBar, hr.groups, hr.lexemes⟩
  obtain ⟨r₁, hrun, hat, hlead⟩ := hm _ hinner
  have hdepth₁ := hat.depth
  refine ⟨{ r₁ with depth := r₁.depth - 1 }, (bind_eq rfl).trans (bind_eq hrun), ?_,
    ⟨hlead.items, hlead.sound, hlead.outline⟩⟩
  exact ⟨by dsimp only; omega, hat.inBar, hat.groups, hat.lexemes⟩

/-- The content of a group is read with the group open. -/
theorem group {bars : Bool} {k : α → Run β} (hm : Reads room bars (groups + 1) m s a l told)
    (hk : Reads room inBar groups (k a) l b left []) :
    Reads room inBar groups
      (do
        let outer ← openGroup bars
        let value ← m
        closeGroup outer
        k value) s b left told := by
  intro r hr
  have hinner : { r with inBar := bars, groups := r.groups + 1 }.At room bars (groups + 1) s :=
    ⟨hr.depth, rfl, congrArg (· + 1) hr.groups, hr.lexemes⟩
  obtain ⟨r₁, hrun₁, hat₁, hlead₁⟩ := hm _ hinner
  have houter : { r₁ with inBar := r.inBar, groups := r₁.groups - 1 }.At room inBar groups l :=
    ⟨hat₁.depth, hr.inBar, by simp [hat₁.groups], hat₁.lexemes⟩
  have hlead : r.Leads { r₁ with inBar := r.inBar, groups := r₁.groups - 1 } told :=
    ⟨hlead₁.items, hlead₁.sound, hlead₁.outline⟩
  obtain ⟨r₂, hrun₂, hat₂, hlead₂⟩ := hk _ houter
  refine ⟨r₂, ?_, hat₂, List.append_nil told ▸ hlead.trans hlead₂⟩
  exact (bind_eq rfl).trans ((bind_eq hrun₁).trans ((bind_eq rfl).trans hrun₂))

/-- A round of a loop tells how much it takes: as much as is no longer left after it. -/
theorem round {k : α → Run β} {n : Nat} (hm : Reads room inBar groups m s a l told)
    (hn : s.length = n + l.length) (hpos : 0 < n)
    (hk : Reads room inBar groups (k a) l b left told') :
    Reads room inBar groups
      (do
        let before ← countTaken
        let value ← m
        recordRound before
        k value) s b left (told ++ .round n :: told') := by
  intro r hr
  obtain ⟨r₁, hrun₁, hat₁, hlead₁⟩ := hm r hr
  have htaken : r₁.taken.length = r.taken.length + n := by
    have hitems := congrArg List.length hlead₁.items
    rw [r₁.length_items, r.length_items, hat₁.lexemes, hr.lexemes] at hitems
    omega
  have hround : (Event.round r.taken.length r₁.taken.length).Sound :=
    htaken ▸ Nat.lt_add_of_pos_right hpos
  have htold : (Event.round r.taken.length r₁.taken.length).outline = .round n := by
    rw [Event.outline, htaken, Nat.add_sub_cancel_left]
  have hlead := hlead₁.record hround
  rw [htold] at hlead
  obtain ⟨r₂, hrun₂, hat₂, hlead₂⟩ := hk _ (hat₁.record _)
  refine ⟨r₂, ?_, hat₂, List.append_cons told _ told' ▸ hlead.trans hlead₂⟩
  exact (bind_eq rfl).trans ((bind_eq hrun₁).trans ((bind_eq rfl).trans hrun₂))

end Reads

/-! ## Single steps -/

theorem Reads.look {r : Reader} {ahead : Lookahead} (hr : r.At room inBar groups s)
    (h : ahead.remaining = r.ahead.remaining) :
    { r with ahead }.At room inBar groups s ∧ r.Leads { r with ahead } [] := by
  refine ⟨⟨hr.depth, hr.inBar, hr.groups, ?_⟩,
    ⟨?_, fun hsound => hsound, (List.append_nil _).symm⟩⟩
  · rw [← hr.lexemes, Reader.lexemes, h, Reader.lexemes]
  · rw [Reader.items, h, Reader.items]

theorem lexeme?_peekNth (n : Nat) (ahead : Lookahead) :
    (ahead.peekNth n).1.lexeme? = (ahead.remaining.map (·.lexeme))[n]? := by
  rw [List.getElem?_map]
  cases h : ahead.remaining[n]? with
  | none => rw [Lookahead.peekNth_of_none h]; rfl
  | some token => rw [Lookahead.peekNth_of_some h]; rfl

theorem reads_peek : Reads room inBar groups peek s s.head? s [] := by
  intro r hr
  have hahead : (r.ahead.peekNth 0).2.remaining = r.ahead.remaining := by
    rw [Lookahead.peekNth_snd, Lookahead.remaining_ensure]
  obtain ⟨hat, hlead⟩ := Reads.look hr hahead
  refine ⟨_, ?_, hat, hlead⟩
  rw [← hr.lexemes, Reader.lexemes, List.head?_eq_getElem?, ← lexeme?_peekNth]
  rfl

theorem reads_peekSecond :
    Reads room inBar groups peekSecond (x :: s) s.head? (x :: s) [] := by
  intro r hr
  have hahead : (r.ahead.peekNth 1).2.remaining = r.ahead.remaining := by
    rw [Lookahead.peekNth_snd, Lookahead.remaining_ensure]
  obtain ⟨hat, hlead⟩ := Reads.look hr hahead
  refine ⟨_, ?_, hat, hlead⟩
  have hsecond : s.head? = (r.ahead.peekNth 1).1.lexeme? := by
    have hlexemes : r.ahead.remaining.map (·.lexeme) = x :: s := hr.lexemes
    rw [lexeme?_peekNth, hlexemes, List.head?_eq_getElem?]
    rfl
  rw [hsecond]
  rfl

theorem reads_hasClosingBar {found : Bool} (h : Formula.hasClosingBar 0 s = found) :
    Reads room inBar groups hasClosingBar s found s [] := by
  intro r hr
  obtain ⟨hat, hlead⟩ := Reads.look hr r.ahead.remaining_hasClosingBar
  refine ⟨_, ?_, hat, hlead⟩
  have hfound : found = r.ahead.hasClosingBar.1 := by
    have hlexemes : r.ahead.remaining.map (·.lexeme) = s := hr.lexemes
    rw [Lookahead.hasClosingBar_eq, hlexemes, h]
  rw [hfound]
  rfl

theorem reads_getInBar : Reads room inBar groups getInBar s inBar s [] :=
  fun r hr => ⟨r, by rw [getInBar, hr.inBar], hr, .refl r⟩

theorem reads_getDepth : Reads room inBar groups getDepth s (maxDepth - room) s [] := by
  intro r hr
  have hdepth : maxDepth - room = r.depth := Nat.sub_eq_of_eq_add hr.depth.symm
  exact ⟨r, by rw [getDepth, hdepth], hr, .refl r⟩

theorem reads_record {event : Event} (h : event.Sound) :
    Reads room inBar groups (record event) s () s [event.outline] :=
  fun r hr => ⟨_, rfl, hr.record event, (Reader.Leads.refl r).record h⟩

/-- What is next is taken. -/
theorem take_next {r : Reader} (hr : r.At room inBar groups (x :: s)) :
    ∃ token ahead, r.ahead.next = (.token token, ahead) ∧ token.lexeme = x ∧
      { r with ahead, taken := r.taken ++ [TokenItem.token token] }.At room inBar groups s ∧
      r.Leads { r with ahead, taken := r.taken ++ [TokenItem.token token] } [] := by
  obtain ⟨token, rest, hremaining, htoken, hrest⟩ := hr.exists_token
  obtain ⟨ahead, hnext, hahead⟩ := Lookahead.exists_next hremaining
  refine ⟨token, ahead, hnext, htoken, ⟨hr.depth, hr.inBar, hr.groups, ?_⟩,
    ⟨?_, fun hsound => hsound, (List.append_nil _).symm⟩⟩
  · rw [Reader.lexemes, hahead, hrest]
  · simp [Reader.items, hahead, hremaining]

/-- After the next lexeme the run goes on, whatever its token was. -/
theorem Reads.afterNext {k : Run α} (hk : Reads room inBar groups k s a left told) :
    Reads room inBar groups
      (do
        let _ ← next
        k) (x :: s) a left told := by
  intro r hr
  obtain ⟨token, ahead, hnext, -, hat, hlead⟩ := take_next hr
  obtain ⟨r', hrun, hat', hlead'⟩ := hk _ hat
  have hstep : next r =
      some (.token token, { r with ahead, taken := r.taken ++ [.token token] }) := by
    rw [next, hnext]
  exact ⟨r', (bind_eq hstep).trans hrun, hat', hlead.trans hlead'⟩

/-- An operand may be asked for: one can begin here, or a term outside of all groups does. -/
def Allowed (site : Site) (inBar : Bool) (groups : Nat) (s : List Lexeme) : Prop :=
  Formula.atOperandEnd inBar s = false ∨ site = .term false ∧ groups = 0 ∧ inBar = false

theorem Allowed.sound {site : Site} {token : Token}
    (h : Allowed site inBar groups (token.lexeme :: s)) :
    (Event.operand site inBar groups (.token token)).Sound := by
  refine ⟨token, rfl, fun role => ?_, fun role => ?_⟩
  · rcases h with h | ⟨hsite, hgroups, -⟩
    · simp [closes, role] at h
    · exact ⟨hsite, hgroups⟩
  · rcases h with h | ⟨-, -, hbar⟩
    · simpa [closes, role] using h
    · exact hbar

theorem reads_demand {site : Site} (h : Allowed site inBar groups (x :: s)) :
    Reads room inBar groups (demand site) (x :: s) (some x) s
      [.operand site inBar groups (some x)] := by
  intro r hr
  obtain ⟨token, ahead, hnext, rfl, hat, hlead⟩ := take_next hr
  obtain rfl := hr.inBar
  obtain rfl := hr.groups
  have hdemand : demand site r = some (some token.lexeme,
      { r with
        ahead
        taken := r.taken ++ [.token token]
        events := .operand site r.inBar r.groups (.token token) :: r.events }) := by
    rw [demand, hnext]
    rfl
  exact ⟨_, hdemand, hat.record _, hlead.record h.sound⟩

/-! ## Decisions -/

theorem endsOperand_head? (inBar : Bool) (s : List Lexeme) :
    endsOperand inBar s.head? = Formula.atOperandEnd inBar s := by
  cases s <;> rfl

theorem reads_atOperandEnd {ends : Bool} (h : Formula.atOperandEnd inBar s = ends) :
    Reads room inBar groups atOperandEnd s ends s [] := by
  rw [← h, ← endsOperand_head?]
  exact reads_getInBar.after reads_peek.andReturn

theorem reads_lacksOperand {ends : Bool} (h : Formula.atOperandEnd inBar s = ends) :
    Reads room inBar groups lacksOperand (x :: s) ends (x :: s) [] := by
  rw [← h, ← endsOperand_head?]
  exact reads_getInBar.after reads_peekSecond.andReturn

/-- No level of scripts is attached empty. -/
theorem reads_attach {slots : Slots} (h : slots.sub = true ∨ slots.sup = true) :
    Reads room inBar groups (attach slots) s () s [.attach slots.sub slots.sup] :=
  reads_record h

theorem reads_attachFull (slots : Slots) (marker : Marker) :
    Reads room inBar groups (attachFull slots marker) s () s
      (attached (slots.isTaken marker) slots) := by
  unfold attachFull attached
  split
  · next h => exact reads_attach (by cases marker <;> simp_all [Slots.isTaken])
  · exact .pure

theorem reads_endScripts (slots : Slots) (reason : ScriptsEnd) :
    Reads room inBar groups (endScripts slots reason) s (.done reason) s
      (attached (slots.sub || slots.sup) slots) := by
  have hlast : Reads room inBar groups (attachLast slots) s () s
      (attached (slots.sub || slots.sup) slots) := by
    unfold attachLast attached
    split
    · next h => exact reads_attach (by simpa using h)
    · exact .pure
  exact hlast.andReturn

theorem closing?_word {role : Role} (word : WordOf role) :
    (Lexeme.symbol word.1).closing? role = some word := by
  simp [Lexeme.closing?, word.2]

theorem closing?_eq_none {role : Role} (h : x.role? ≠ some role) : x.closing? role = none := by
  cases x with
  | symbol word =>
    have hrole : word.role ≠ role := fun hrole => h (congrArg some hrole)
    simp [Lexeme.closing?, hrole]
  | _ => rfl

theorem reads_takeClosing {role : Role} {closing : Option (WordOf role)}
    (h : ReadsClosing role s closing left) :
    Reads room inBar groups (takeClosing role) s closing left [] := by
  refine reads_peek.after ?_
  cases h with
  | closed word =>
    rw [List.head?_cons, Option.bind_some, closing?_word]
    exact .afterNext .pure
  | unclosed next =>
    have hnone : s.head?.bind (Lexeme.closing? role) = none := by
      cases s with
      | nil => rfl
      | cons y s => exact closing?_eq_none (next y rfl)
    rw [hnone]
    exact .pure

end Run

end FormulaMarkup.OnDemand
