import FormulaMarkup.Proofs.Markup.Scripts
import Mathlib.Data.List.Chain
import Mathlib.Data.List.Forall2

/-!
# Chains of scripts as chunks

A chain of scripts is cut greedily: each chunk is as long as can be without two scripts of one kind.
Chunk by chunk the scripts go around a base.
-/

namespace FormulaMarkup

/-! ## The greedy cut -/

section

variable {α : Type}

/-- The chunks make up the chain, no marker comes twice in one of them, and each goes on until the
next marker would. -/
structure IsSplit (chain : List (Marker × α)) (chunks : List (List (Marker × α))) : Prop where
  flatten : chunks.flatten = chain
  ne_nil : ∀ chunk ∈ chunks, chunk ≠ []
  nodup : ∀ chunk ∈ chunks, (chunk.map Prod.fst).Nodup
  greedy : chunks.IsChain fun chunk next => ∀ script ∈ next.head?, script.1 ∈ chunk.map Prod.fst

def chunksOf : List (Marker × α) → List (List (Marker × α))
  | [] => []
  | [script] => [[script]]
  | script :: next :: chain =>
    if script.1 = next.1 then
      [script] :: chunksOf (next :: chain)
    else
      [script, next] :: chunksOf chain

namespace IsSplit

variable {chain : List (Marker × α)} {chunk : List (Marker × α)}
  {chunks : List (List (Marker × α))}

theorem nil : IsSplit (α := α) [] [] := ⟨rfl, nofun, nofun, .nil⟩

theorem cons (h : IsSplit chain chunks) (chunk : List (Marker × α)) (hne : chunk ≠ [])
    (hnodup : (chunk.map Prod.fst).Nodup)
    (hgreedy : ∀ script ∈ chain.head?, script.1 ∈ chunk.map Prod.fst) :
    IsSplit (chunk ++ chain) (chunk :: chunks) where
  flatten := by rw [List.flatten_cons, h.flatten]
  ne_nil := List.forall_mem_cons.2 ⟨hne, h.ne_nil⟩
  nodup := List.forall_mem_cons.2 ⟨hnodup, h.nodup⟩
  greedy := by
    cases chunks with
    | nil => exact .singleton _
    | cons next chunks =>
      refine .cons_cons (fun script hscript => hgreedy script ?_) h.greedy
      cases next with
      | nil => exact absurd rfl (h.ne_nil [] List.mem_cons_self)
      | cons first next =>
        rw [← h.flatten]
        exact hscript

theorem tail (h : IsSplit chain (chunk :: chunks)) :
    IsSplit chunks.flatten chunks ∧
      ∀ script ∈ chunks.flatten.head?, script.1 ∈ chunk.map Prod.fst := by
  refine ⟨⟨rfl, (List.forall_mem_cons.1 h.ne_nil).2, (List.forall_mem_cons.1 h.nodup).2,
    h.greedy.tail⟩, ?_⟩
  cases chunks with
  | nil => nofun
  | cons next chunks =>
    have hnext := (List.isChain_cons_cons.1 h.greedy).1
    cases next with
    | nil => exact absurd rfl (h.ne_nil [] (by simp))
    | cons first next => exact hnext

end IsSplit

/-- There are two markers, so a chunk has one script or two. -/
theorem chunk_cases {chunk : List (Marker × α)} (hne : chunk ≠ [])
    (h : (chunk.map Prod.fst).Nodup) :
    (∃ script, chunk = [script]) ∨
      ∃ script next, script.1 ≠ next.1 ∧ chunk = [script, next] := by
  match chunk with
  | [] => exact absurd rfl hne
  | [script] => exact .inl ⟨script, rfl⟩
  | [script, next] => exact .inr ⟨script, next, by simpa using h, rfl⟩
  | (a, _) :: (b, _) :: (c, _) :: _ =>
    -- Three markers that differ from each other do not exist.
    cases a <;> cases b <;> cases c <;> simp at h

theorem mem_of_ne {a b : Marker} (h : a ≠ b) (m : Marker) : m ∈ [a, b] := by
  cases a <;> cases b <;> cases m <;> simp at h ⊢

theorem isSplit_chunksOf (chain : List (Marker × α)) : IsSplit chain (chunksOf chain) := by
  fun_induction chunksOf chain with
  | case1 => exact .nil
  | case2 script => exact IsSplit.nil.cons [script] (by simp) (by simp) nofun
  | case3 script next chain hmarker ih =>
    refine ih.cons [script] (by simp) (by simp) ?_
    rintro _ ⟨⟩
    simp [hmarker]
  | case4 script next chain hmarker ih =>
    exact ih.cons [script, next] (by simp) (by simpa using hmarker) fun other _ => mem_of_ne hmarker other.1

/-- There is one greedy cut. -/
theorem isSplit_iff {chain : List (Marker × α)} {chunks : List (List (Marker × α))} :
    IsSplit chain chunks ↔ chunks = chunksOf chain := by
  constructor
  · intro h
    induction chunks generalizing chain with
    | nil =>
      rw [← h.flatten]
      rfl
    | cons chunk chunks ih =>
      obtain ⟨hmore, hgreedy⟩ := h.tail
      have hchunks := ih hmore
      rw [← h.flatten, List.flatten_cons]
      rcases chunk_cases (h.ne_nil chunk List.mem_cons_self) (h.nodup chunk List.mem_cons_self) with
        ⟨script, rfl⟩ | ⟨script, next, hmarker, rfl⟩
      · cases hrest : chunks.flatten with
        | nil =>
          rw [hrest] at hchunks
          rw [hchunks]
          rfl
        | cons next rest =>
          rw [hrest] at hgreedy hchunks
          have hnext : next.1 = script.1 := by simpa using hgreedy next rfl
          rw [List.singleton_append, chunksOf, if_pos hnext.symm, ← hchunks]
      · rw [List.cons_append, List.singleton_append, chunksOf, if_neg hmarker, ← hchunks]
  · rintro rfl
    exact isSplit_chunksOf chain

/-- The cut depends on the markers only. -/
theorem IsSplit.map {β : Type} (f : α → β) {chain : List (Marker × α)}
    {chunks : List (List (Marker × α))} (h : IsSplit chain chunks) :
    IsSplit (chain.map fun script => (script.1, f script.2))
      (chunks.map (·.map fun script => (script.1, f script.2))) where
  flatten := by rw [← List.map_flatten, h.flatten]
  ne_nil := by simpa using h.ne_nil
  nodup := by simpa [Function.comp_def] using h.nodup
  greedy := by
    rw [List.isChain_map]
    refine h.greedy.imp fun chunk next hnext script hscript => ?_
    rw [List.head?_map, Option.mem_def, Option.map_eq_some_iff] at hscript
    obtain ⟨other, hother, rfl⟩ := hscript
    simpa [Function.comp_def] using hnext other hother

end

/-! ## Scripts around a base -/

namespace Chunk

/-- The base with the scripts of a chunk, the subscript first. As limits they stand under and over
the base. -/
def wrap (limits : Bool) (base : Node) (chunk : List (Marker × Node)) : Node :=
  match chunk.lookup .sub, chunk.lookup .sup with
  | some a, some b => .container (if limits then .munderover else .msubsup) [base, a, b]
  | some a, none => .container (if limits then .munder else .msub) [base, a]
  | none, some b => .container (if limits then .mover else .msup) [base, b]
  | none, none => base

/-- Each chunk goes around the base with the chunks before it. Only the first can be limits. -/
def wrapAll (limits : Bool) (base : Node) : List (List (Marker × Node)) → Node
  | [] => base
  | chunk :: chunks => chunks.foldl (wrap false) (wrap limits base chunk)

theorem attach_one (limits : Bool) (base : Node) (script : Marker × Node) :
    (ScriptLevel.one script.1 script.2).attach limits base = wrap limits base [script] := by
  obtain ⟨marker, node⟩ := script
  cases marker <;> rfl

/-- The levels of a chain are its chunks. -/
theorem forall₂_ofChain (chain : List (Marker × Node)) :
    List.Forall₂ (fun level chunk => ∀ limits base,
      level.attach limits base = wrap limits base chunk)
      (ScriptLevel.ofChain chain) (chunksOf chain) := by
  fun_induction ScriptLevel.ofChain chain with
  | case1 => exact .nil
  | case2 marker a => exact .cons (fun limits base => attach_one limits base (marker, a)) .nil
  | case3 a b chain ih => exact .cons (fun _ _ => rfl) ih
  | case4 a b chain ih => exact .cons (fun _ _ => rfl) ih
  | case5 marker a next chain hsub hsup ih =>
    obtain ⟨marker', b⟩ := next
    have hmarker : marker = marker' := by
      cases marker <;> cases marker'
      · rfl
      · exact absurd rfl (hsub b rfl)
      · exact absurd rfl (hsup b rfl)
      · rfl
    rw [chunksOf, if_pos hmarker]
    exact .cons (fun limits base => attach_one limits base (marker, a)) ih

theorem attachAll_ofChain (limits : Bool) (base : Node) (chain : List (Marker × Node)) :
    ScriptLevel.attachAll limits base (ScriptLevel.ofChain chain) =
      wrapAll limits base (chunksOf chain) := by
  have hfold : ∀ levels chunks base, List.Forall₂ (fun (level : ScriptLevel) chunk =>
      ∀ limits base, level.attach limits base = wrap limits base chunk) levels chunks →
      levels.foldl (ScriptLevel.attach false) base = chunks.foldl (wrap false) base := by
    intro levels chunks base h
    induction h generalizing base with
    | nil => rfl
    | cons hlevel _ ih => rw [List.foldl_cons, List.foldl_cons, hlevel, ih]
  have hlevels := forall₂_ofChain chain
  generalize ScriptLevel.ofChain chain = levels, chunksOf chain = chunks at hlevels ⊢
  cases hlevels with
  | nil => rfl
  | cons hlevel hmore => rw [ScriptLevel.attachAll, hlevel, hfold _ _ _ hmore, wrapAll]

end Chunk

end FormulaMarkup
