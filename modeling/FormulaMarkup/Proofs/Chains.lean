import FormulaMarkup.Proofs.Markup.Chunks
import FormulaMarkup.Proofs.Standalone

/-!
# Chains of scripts on a base

Whatever the order of the markers, a chain of scripts is one node: its base with chunk after chunk
of the scripts around it.
-/

namespace FormulaMarkup

/-- A base and its scripts, with blanks between them. -/
def scriptsInput (b : String) (chain : List (Marker × String)) : String :=
  " ".intercalate (b :: chain.flatMap fun script => [script.1.word.spelling, script.2])

def chainLexemes (chain : List (Marker × String)) : List Lexeme :=
  chain.flatMap fun script => .symbol script.1.word :: lexemes script.2

def argumentNodesOf (chain : List (Marker × String)) : List (Marker × Node) :=
  chain.map fun script => (script.1, argumentNode script.2)

/-! ## Lexemes -/

theorem Marker.word_plain (marker : Marker) :
    (Lexeme.symbol marker.word).announcesText = false ∧
      (Lexeme.symbol marker.word).isOperand = false := by
  cases marker <;> decide

theorem lexemes_scriptsInput {b : String} {chain : List (Marker × String)} (hb : IsOperand b)
    (hchain : ∀ script ∈ chain, IsOperand script.2) :
    lexemes (scriptsInput b chain) = lexemes b ++ chainLexemes chain := by
  induction chain generalizing b with
  | nil => simp [scriptsInput, chainLexemes]
  | cons script chain ih =>
    obtain ⟨hscript, hchain⟩ := List.forall_mem_cons.1 hchain
    obtain ⟨htext, hoperand⟩ := script.1.word_plain
    have hinput : scriptsInput b (script :: chain) =
        b ++ " " ++ (script.1.word.spelling ++ " " ++ scriptsInput script.2 chain) := by
      rw [scriptsInput, List.flatMap_cons, List.cons_append, String.intercalate_cons_cons,
        List.cons_append, String.intercalate_cons_cons]
      rfl
    rw [hinput, hb.isClosed.lexemes_append_word htext hoperand, ih hscript hchain]
    rfl

/-! ## Slots -/

namespace Formula

/-- The markers of the scripts that are on the current level. -/
def Slots.Holds (slots : Slots) (taken : List Marker) : Prop :=
  ∀ marker, slots.isTaken marker = true ↔ marker ∈ taken

theorem Slots.empty_holds : Slots.empty.Holds [] := by
  intro marker
  cases marker <;> simp [Slots.isTaken, Slots.empty]

variable {slots : Slots} {taken : List Marker} {marker : Marker}

theorem Slots.Holds.isTaken_eq (h : slots.Holds taken) (hmarker : marker ∉ taken) :
    slots.isTaken marker = false :=
  Bool.eq_false_iff.2 fun htaken => hmarker ((h marker).1 htaken)

/-- A free place is filled. -/
theorem Slots.Holds.add (h : slots.Holds taken) (hmarker : marker ∉ taken) :
    (slots.add marker).Holds (taken ++ [marker]) ∧ (slots.add marker).levels = slots.levels := by
  have hfree := h.isTaken_eq hmarker
  constructor
  · intro other
    rw [List.mem_append, List.mem_singleton, ← h other]
    cases marker <;> cases other <;> simp_all [Slots.add, Slots.isTaken]
  · cases marker <;> simp [Slots.add, hfree]

theorem Slots.add_taken (h : slots.isTaken marker = true) :
    slots.add marker = ⟨decide (marker = .sub), decide (marker = .sup), slots.levels + 1⟩ := by
  cases marker <;> simp [Slots.add, h]

/-- On a place that is taken, a level begins. -/
theorem Slots.Holds.begin (h : slots.Holds taken) (hmarker : marker ∈ taken) :
    (slots.add marker).Holds [marker] ∧ (slots.add marker).levels = slots.levels + 1 := by
  rw [Slots.add_taken ((h marker).2 hmarker)]
  refine ⟨fun other => ?_, rfl⟩
  cases other <;> simp [Slots.isTaken, eq_comm]

/-! ## Reading a chain -/

/-- The whole chain is read, and its scripts are the arguments. -/
def ReadsChain (slots : Slots) (chain : List (Marker × String)) : Prop :=
  ∃ scripts, ReadsScripts maxDepth false slots (chainLexemes chain) scripts [] ∧
    scripts.chain = argumentNodesOf chain

theorem ReadsChain.nil (slots : Slots) : ReadsChain slots [] := ⟨.done .complete, .nil, rfl⟩

theorem ReadsChain.cons {script : Marker × String} {chain : List (Marker × String)}
    (hscript : IsOperand script.2)
    (hfree : (slots.isTaken script.1 && maxDepth ≤ slots.levels + 1) = false)
    (hmore : ReadsChain (slots.add script.1) chain) : ReadsChain slots (script :: chain) := by
  obtain ⟨marker, o⟩ := script
  obtain ⟨operand, hoperand⟩ := hscript.exists_represents
  obtain ⟨scripts, hreads, hscripts⟩ := hmore
  refine ⟨.cons marker operand scripts, ?_, ?_⟩
  · have hmark := atOperandEnd_append hoperand.starts (chainLexemes chain)
    exact .cons marker hmark hfree (hoperand.reads _) hreads
  · rw [Scripts.chain, hscripts, hoperand.argument]
    rfl

/-- A chunk is read on one level. -/
theorem ReadsChain.chunk {chunk chain : List (Marker × String)} (hslots : slots.Holds taken)
    (hnodup : (taken ++ chunk.map Prod.fst).Nodup)
    (hoperands : ∀ script ∈ chunk, IsOperand script.2)
    (hmore : ∀ slots' : Slots, slots'.Holds (taken ++ chunk.map Prod.fst) →
      slots'.levels = slots.levels → ReadsChain slots' chain) :
    ReadsChain slots (chunk ++ chain) := by
  induction chunk generalizing slots taken with
  | nil => exact hmore slots (by simpa using hslots) rfl
  | cons script chunk ih =>
    obtain ⟨hscript, hoperands⟩ := List.forall_mem_cons.1 hoperands
    rw [List.map_cons, ← List.singleton_append, ← List.append_assoc] at hnodup hmore
    have hmarker : script.1 ∉ taken := by
      have hfirst := (List.nodup_append.1 hnodup).1
      exact fun hmem => (List.nodup_append.1 hfirst).2.2 _ hmem _ (List.mem_singleton_self _) rfl
    obtain ⟨hadd, hlevels⟩ := hslots.add hmarker
    refine .cons hscript (by rw [hslots.isTaken_eq hmarker]; rfl) ?_
    exact ih hadd hnodup hoperands fun slots' hslots' hlevels' =>
      hmore slots' hslots' (hlevels'.trans hlevels)

/-- After a chunk, the ones that follow are read if there is room for as many levels. -/
theorem readsChain_of_chunks {chunks : List (List (Marker × String))}
    (hslots : slots.Holds taken) (hsplit : IsSplit chunks.flatten chunks)
    (hgreedy : ∀ script ∈ chunks.flatten.head?, script.1 ∈ taken)
    (hoperands : ∀ script ∈ chunks.flatten, IsOperand script.2)
    (hroom : slots.levels + 1 + chunks.length ≤ maxDepth) : ReadsChain slots chunks.flatten := by
  induction chunks generalizing slots taken with
  | nil => exact .nil slots
  | cons chunk chunks ih =>
    obtain ⟨hmore, hnext⟩ := hsplit.tail
    have hnodup := hsplit.nodup chunk List.mem_cons_self
    cases chunk with
    | nil => exact absurd rfl (hsplit.ne_nil [] List.mem_cons_self)
    | cons script chunk =>
      rw [List.flatten_cons, List.cons_append] at hgreedy hoperands ⊢
      obtain ⟨hscript, hoperands⟩ := List.forall_mem_cons.1 hoperands
      obtain ⟨hchunk, hchunks⟩ := List.forall_mem_append.1 hoperands
      obtain ⟨hbegin, hlevels⟩ := hslots.begin (hgreedy script rfl)
      rw [List.length_cons] at hroom
      have hfree : (slots.isTaken script.1 && maxDepth ≤ slots.levels + 1) = false := by
        rw [Bool.and_eq_false_iff, decide_eq_false_iff_not]
        exact .inr (by omega)
      refine .cons hscript hfree (.chunk hbegin hnodup hchunk fun slots' hslots' hlevels' => ?_)
      exact ih hslots' hmore hnext hchunks (by omega)

theorem readsChain_of_split {chain : List (Marker × String)}
    {chunks : List (List (Marker × String))} (hne : chain ≠ [])
    (hoperands : ∀ script ∈ chain, IsOperand script.2) (hsplit : IsSplit chain chunks)
    (hlength : chunks.length ≤ maxDepth) : ReadsChain .empty chain := by
  cases chunks with
  | nil => exact absurd hsplit.flatten.symm hne
  | cons chunk chunks =>
    obtain ⟨hmore, hgreedy⟩ := hsplit.tail
    have hnodup := hsplit.nodup chunk List.mem_cons_self
    rw [← hsplit.flatten, List.flatten_cons] at hoperands ⊢
    obtain ⟨hchunk, hchunks⟩ := List.forall_mem_append.1 hoperands
    rw [List.length_cons] at hlength
    refine .chunk Slots.empty_holds hnodup hchunk fun slots hslots hlevels => ?_
    have hroom : slots.levels = 0 := hlevels
    exact readsChain_of_chunks hslots hmore hgreedy hchunks (by omega)

/-- A base and a chain after it are a formula of one term. -/
theorem parse_scripted {s t : List Lexeme} {base : Operand} {scripts : Scripts}
    (hbase : Freestanding s base) (hscripts : ReadsScripts maxDepth false .empty t scripts []) :
    parse (s ++ t) = [.scripted base scripts] :=
  parse_eq_iff.2 (.cons (hbase.goes t) (.scripted (hbase.reads t) hscripts nofun) (.nil rfl))

theorem nodes_scripted {base : Operand} {scripts : Scripts} (h : scripts.chain ≠ []) :
    nodes [.scripted base scripts] =
      [ScriptLevel.attachAll base.takesLimits base.fragment.single
        (ScriptLevel.ofChain scripts.chain)] := by
  obtain ⟨script, chain, hchain⟩ := List.exists_cons_of_ne_nil h
  simp [nodes, Term.fragments, Term.fragment, hchain, Fragment.withScripts, Fragment.nodesOfList,
    Fragment.nodes]

end Formula

/-! ## The markup -/

open Formula

/-- Operands with a chain of scripts are one node, the base with the chunks of the chain around it.
The scripts are arguments, so they lose brackets around them, and the base keeps them. -/
theorem body_scriptsInput (settings : Settings) {b : String} {chain : List (Marker × String)}
    {chunks : List (List (Marker × String))} (hb : IsOperand b)
    (hchain : ∀ script ∈ chain, IsOperand script.2) (hne : chain ≠ [])
    (hsplit : IsSplit chain chunks) (hlength : chunks.length ≤ maxDepth) :
    body settings (scriptsInput b chain) =
      [Chunk.wrapAll (takesLimits b) (.singleOrRow (body settings b))
        (chunks.map argumentNodesOf)] := by
  obtain ⟨base, hbase⟩ := hb.exists_represents
  obtain ⟨scripts, hreads, hargs⟩ := readsChain_of_split hne hchain hsplit hlength
  have hparse : parse (lexemes (scriptsInput b chain)) = [.scripted base scripts] := by
    rw [lexemes_scriptsInput hb hchain]
    exact parse_scripted hbase.toFreestanding hreads
  have hscripts : scripts.chain ≠ [] := by
    rw [hargs]
    exact mt List.map_eq_nil_iff.1 hne
  have hchunks := isSplit_iff.1 (hsplit.map argumentNode)
  rw [body_eq, ofInput, hparse, nodes_scripted hscripts, hargs, Chunk.attachAll_ofChain,
    hbase.takesLimits, hbase.single settings, argumentNodesOf, ← hchunks]
  rfl

/-- Limits of a sum with a bar alone in one of them, and a second subscript around them. -/
theorem body_scriptsInput_sum :
    let chain := [(Marker.sup, "n"), (.sub, "(k | m)"), (.sub, "-2")]
    IsOperand "sum" ∧ (∀ script ∈ chain, IsOperand script.2) ∧
      IsSplit chain [[(.sup, "n"), (.sub, "(k | m)")], [(.sub, "-2")]] ∧
      scriptsInput "sum" chain = "sum ^ n _ (k | m) _ -2" ∧
      body .default "sum ^ n _ (k | m) _ -2" =
        [.container .msub [
          .container .munderover [.leaf .mo "∑",
            .row [.leaf .mi "k", .row [.leaf .mo "|"], .leaf .mi "m"], .leaf .mi "n"],
          .row [.leaf .mo "-", .leaf .mn "2"]]] := by
  intro chain
  have hsum : tokenize "sum" = [⟨.symbol ⟨"sum", .largeOperator "∑", by decide +kernel⟩, 0, 3⟩] := by
    decide +kernel
  have hn : tokenize "n" = [⟨.character 'n', 0, 1⟩] := by decide +kernel
  have htwo : tokenize "-2" = [⟨.number ⟨true, "2", by decide⟩, 0, 2⟩] := by decide +kernel
  have hgroup : lexemes "(k | m)" = .symbol ⟨"(", .openBracket "(", by decide +kernel⟩ ::
      ([.character 'k', .symbol ⟨"|", .bar "|", by decide +kernel⟩, .character 'm'] ++
        [.symbol ⟨")", .closeBracket ")", by decide +kernel⟩]) := by decide +kernel
  have hbase : IsOperand "sum" := .of_token hsum (by simp) rfl
  have hchain : ∀ script ∈ chain, IsOperand script.2 := by
    simp only [chain, List.forall_mem_cons]
    refine ⟨.of_token hn (by simp) rfl, ?_, .of_token htwo (by simp) rfl, List.forall_mem_nil _⟩
    refine .group ⟨_, rfl⟩ _ ⟨_, rfl⟩ hgroup ⟨rfl, rfl⟩ ?_ ?_
    · exact fun k hk => absurd (List.mem_of_getElem? hk) (by decide +kernel)
    · rw [notices, ofInput, hgroup]
      decide +kernel
  have hsplit : IsSplit chain [[(.sup, "n"), (.sub, "(k | m)")], [(.sub, "-2")]] :=
    isSplit_iff.2 (by decide +kernel)
  have hinput : scriptsInput "sum" chain = "sum ^ n _ (k | m) _ -2" := by decide +kernel
  have hbody := body_scriptsInput .default hbase hchain (by decide) hsplit (by decide)
  refine ⟨hbase, hchain, hsplit, hinput, ?_⟩
  rw [hinput] at hbody
  rw [hbody]
  decide +kernel

end FormulaMarkup
