import FormulaMarkup.Proofs.Markup.Entities

/-!
# Escaped texts can be read back
-/

namespace FormulaMarkup.Markup

/-- Writes the characters in place of their entities. What begins no entity stays as it is. -/
def unescape : List Char → List Char
  | '&' :: 'a' :: 'm' :: 'p' :: ';' :: s => '&' :: unescape s
  | '&' :: 'l' :: 't' :: ';' :: s => '<' :: unescape s
  | '&' :: 'g' :: 't' :: ';' :: s => '>' :: unescape s
  | '&' :: 'q' :: 'u' :: 'o' :: 't' :: ';' :: s => '\x22' :: unescape s
  | c :: s => c :: unescape s
  | [] => []

def contentEntities : List Entity := [.amp, .lt, .gt]

def attributeEntities : List Entity := [.amp, .quot, .lt]

def allEntities : List Entity := [.amp, .lt, .gt, .quot]

/-! ## Tables of entities -/

theorem readable_all : Entity.Readable allEntities :=
  ⟨by decide, by decide, by decide⟩

theorem contentEntities_subset : contentEntities ⊆ allEntities := by decide

theorem attributeEntities_subset : attributeEntities ⊆ allEntities := by decide

theorem readable_content : Entity.Readable contentEntities :=
  readable_all.mono contentEntities_subset

theorem readable_attribute : Entity.Readable attributeEntities :=
  readable_all.mono attributeEntities_subset

theorem contentChar_eq (c : Char) : contentChar c = Entity.escapeChar contentEntities c := by
  unfold contentChar
  split
  · rfl
  · rfl
  · rfl
  · next hamp hlt hgt =>
    refine (Entity.escapeChar_of_ne ?_).symm
    simp only [contentEntities, List.forall_mem_cons]
    exact ⟨Ne.symm hamp, Ne.symm hlt, Ne.symm hgt, List.forall_mem_nil _⟩

theorem attributeChar_eq (c : Char) : attributeChar c = Entity.escapeChar attributeEntities c := by
  unfold attributeChar
  split
  · rfl
  · rfl
  · rfl
  · next hamp hquot hlt =>
    refine (Entity.escapeChar_of_ne ?_).symm
    simp only [attributeEntities, List.forall_mem_cons]
    exact ⟨Ne.symm hamp, Ne.symm hquot, Ne.symm hlt, List.forall_mem_nil _⟩

theorem escapeContent_eq (s : List Char) : escapeContent s = Entity.escape contentEntities s := by
  rw [escapeContent, Entity.escape, funext contentChar_eq]

theorem escapeAttribute_eq (s : List Char) :
    escapeAttribute s = Entity.escape attributeEntities s := by
  rw [escapeAttribute, Entity.escape, funext attributeChar_eq]

theorem unescape_eq (s : List Char) : unescape s = Entity.replace allEntities s := by
  have hwritten (x : Entity) (hx : x ∈ allEntities) (s : List Char) :=
    Entity.replace_written readable_all hx s
  fun_induction unescape s with
  | case1 s ih => exact ih ▸ (hwritten .amp (by decide) s).symm
  | case2 s ih => exact ih ▸ (hwritten .lt (by decide) s).symm
  | case3 s ih => exact ih ▸ (hwritten .gt (by decide) s).symm
  | case4 s ih => exact ih ▸ (hwritten .quot (by decide) s).symm
  | case5 c s hamp hlt hgt hquot ih =>
    rw [Entity.replace_cons, ih]
    simp only [allEntities, List.forall_mem_cons]
    refine ⟨?_, ?_, ?_, ?_, List.forall_mem_nil _⟩ <;> rintro ⟨t, ht⟩ <;> cases ht
    · exact hamp t rfl rfl
    · exact hlt t rfl rfl
    · exact hgt t rfl rfl
    · exact hquot t rfl rfl
  | case6 => rw [Entity.replace]

/-! ## Reading back -/

theorem unescape_escapeContent (s : List Char) : unescape (escapeContent s) = s := by
  rw [unescape_eq, escapeContent_eq,
    Entity.replace_escape readable_all contentEntities_subset List.mem_cons_self]

theorem unescape_escapeAttribute (s : List Char) : unescape (escapeAttribute s) = s := by
  rw [unescape_eq, escapeAttribute_eq,
    Entity.replace_escape readable_all attributeEntities_subset List.mem_cons_self]

theorem lt_notMem_escapeContent (s : List Char) : '<' ∉ escapeContent s := by
  rw [escapeContent_eq]
  exact Entity.notMem_escape (x := .lt) readable_content (by decide) (by decide) s

theorem notMem_escapeAttribute (s : List Char) :
    '<' ∉ escapeAttribute s ∧ '\x22' ∉ escapeAttribute s := by
  rw [escapeAttribute_eq]
  exact ⟨Entity.notMem_escape (x := .lt) readable_attribute (by decide) (by decide) s,
    Entity.notMem_escape (x := .quot) readable_attribute (by decide) (by decide) s⟩

end FormulaMarkup.Markup
