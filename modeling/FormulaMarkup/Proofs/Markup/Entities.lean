import FormulaMarkup.Markup.Escape
import Mathlib.Data.List.Basic

/-!
# Entities

An escaper writes some characters by name and keeps the others. If the names can be told apart and
`&` is one of the characters, the text can be read back from left to right: each `&` in it begins an
entity, and none of the other characters that have a name is left.
-/

namespace FormulaMarkup.Markup

/-- A character that is written by name. -/
structure Entity where
  char : Char
  name : List Char
  deriving DecidableEq

namespace Entity

def amp : Entity := ⟨'&', ['a', 'm', 'p']⟩

def lt : Entity := ⟨'<', ['l', 't']⟩

def gt : Entity := ⟨'>', ['g', 't']⟩

def quot : Entity := ⟨'\x22', ['q', 'u', 'o', 't']⟩

def written (entity : Entity) : List Char := '&' :: (entity.name ++ [';'])

/-- Names are of letters, and no two characters have the same. A character with a name does not
come up in a name. -/
structure Readable (entities : List Entity) : Prop where
  isAlpha_name : ∀ entity ∈ entities, entity.name.all Char.isAlpha
  not_isAlpha_char : ∀ entity ∈ entities, ¬ entity.char.isAlpha ∧ entity.char ≠ ';'
  eq_of_name : ∀ x ∈ entities, ∀ y ∈ entities, x.name = y.name → x = y

def escapeChar (entities : List Entity) (c : Char) : List Char :=
  match entities.find? (·.char = c) with
  | some entity => entity.written
  | none => [c]

def escape (entities : List Entity) (s : List Char) : List Char := s.flatMap (escapeChar entities)

/-- The character whose entity the text begins with, and what follows the entity. -/
def read? (entities : List Entity) (s : List Char) : Option (Char × List Char) :=
  entities.findSome? fun entity => (s.dropPrefix? entity.written).map (entity.char, ·)

theorem exists_of_read? {entities : List Entity} {s rest : List Char} {c : Char}
    (h : read? entities s = some (c, rest)) :
    ∃ entity ∈ entities, entity.char = c ∧ s = entity.written ++ rest := by
  obtain ⟨entity, hentity, hread⟩ := List.exists_of_findSome?_eq_some h
  obtain ⟨_, hdrop, hpair⟩ := Option.map_eq_some_iff.1 hread
  cases hpair
  obtain ⟨start, hs, hstart⟩ := List.dropPrefix?_eq_some_iff.1 hdrop
  rw [eq_of_beq hstart] at hs
  exact ⟨entity, hentity, rfl, hs⟩

/-- Puts characters in place of their entities, from left to right. What begins no entity stays as
it is. -/
def replace (entities : List Entity) : List Char → List Char
  | [] => []
  | c :: s =>
    match _h : read? entities (c :: s) with
    | some (d, rest) => d :: replace entities rest
    | none => c :: replace entities s
termination_by s => s.length
decreasing_by
  · obtain ⟨entity, -, -, hs⟩ := exists_of_read? _h
    rw [hs, List.length_append]
    exact Nat.lt_add_of_pos_left (Nat.succ_pos _)
  · exact Nat.lt_succ_self _

/-- `e` is what these entities make of `s`, character by character. Besides the `&` at the head of
entities nothing is left that is written by name, and `e` can be read back. -/
structure IsEscaped (entities : List Entity) (s e : List Char) : Prop where
  eq_flatMap : e = s.flatMap (escapeChar entities)
  notMem : ∀ entity ∈ entities, entity.char ≠ '&' → entity.char ∉ e
  begins : ∀ after, '&' :: after <:+ e → ∃ entity ∈ entities, entity.written <+: '&' :: after
  replace_eq : replace entities e = s

variable {entities : List Entity} {x y : Entity} {s : List Char} {c : Char}

theorem Readable.mono {all : List Entity} (h : Readable all) (hsub : entities ⊆ all) :
    Readable entities where
  isAlpha_name x hx := h.isAlpha_name x (hsub hx)
  not_isAlpha_char x hx := h.not_isAlpha_char x (hsub hx)
  eq_of_name x hx y hy := h.eq_of_name x (hsub hx) y (hsub hy)

/-! ## Reading an entity -/

theorem Readable.notMem_name (h : Readable entities) (hx : x ∈ entities) (hc : ¬ c.isAlpha) :
    c ∉ x.name :=
  fun hmem => hc (List.all_eq_true.1 (h.isAlpha_name x hx) c hmem)

theorem Readable.eq_of_prefix (h : Readable entities) (hx : x ∈ entities) (hy : y ∈ entities)
    (hstart : x.written <+: y.written) : x = y := by
  refine h.eq_of_name x hx y hy ?_
  rcases List.prefix_concat_iff.1 (List.cons_prefix_cons.1 hstart).2 with heq | hname
  · exact List.append_cancel_right heq
  · exact absurd (hname.subset List.mem_concat_self) (h.notMem_name hy (by decide))

theorem read?_written (h : Readable entities) (hx : x ∈ entities) (s : List Char) :
    read? entities (x.written ++ s) = some (x.char, s) := by
  cases hread : read? entities (x.written ++ s) with
  | none =>
    have hdrop := List.findSome?_eq_none_iff.1 hread x hx
    rw [List.dropPrefix?_append_of_beq _ (beq_self_eq_true _)] at hdrop
    cases hdrop
  | some pair =>
    obtain ⟨y, hy, hchar, htext⟩ := exists_of_read? hread
    -- Of two entities that begin the same text one begins the other, and then they are the same.
    have hsame : y = x := by
      rcases List.prefix_or_prefix_of_prefix (List.prefix_append x.written s)
        (htext ▸ List.prefix_append y.written pair.2) with hstart | hstart
      · exact (h.eq_of_prefix hx hy hstart).symm
      · exact h.eq_of_prefix hy hx hstart
    subst hsame
    rw [List.append_cancel_left htext, hchar]

theorem read?_eq_none (h : ∀ x ∈ entities, ¬ x.written <+: s) : read? entities s = none := by
  cases hread : read? entities s with
  | none => rfl
  | some pair =>
    obtain ⟨x, hx, -, htext⟩ := exists_of_read? hread
    exact absurd ⟨pair.2, htext.symm⟩ (h x hx)

theorem replace_written (h : Readable entities) (hx : x ∈ entities) (s : List Char) :
    replace entities (x.written ++ s) = x.char :: replace entities s := by
  have hread := read?_written h hx s
  rw [written, List.cons_append] at hread ⊢
  rw [replace]
  split
  · next hfound => rw [hread] at hfound; cases hfound; rfl
  · next hfound => rw [hread] at hfound; cases hfound

theorem replace_cons (h : ∀ x ∈ entities, ¬ x.written <+: c :: s) :
    replace entities (c :: s) = c :: replace entities s := by
  rw [replace]
  split
  · next hfound => rw [read?_eq_none h] at hfound; cases hfound
  · rfl

theorem replace_cons_of_ne (h : c ≠ '&') (s : List Char) :
    replace entities (c :: s) = c :: replace entities s :=
  replace_cons fun _ _ hstart => h (List.cons_prefix_cons.1 hstart).1.symm

/-! ## Writing -/

theorem escape_cons (entities : List Entity) (c : Char) (s : List Char) :
    escape entities (c :: s) = escapeChar entities c ++ escape entities s :=
  List.flatMap_cons

/-- A character is written as its entity, or else has none and is kept. -/
theorem escapeChar_cases (entities : List Entity) (c : Char) :
    (∃ x ∈ entities, x.char = c ∧ escapeChar entities c = x.written) ∨
      (∀ x ∈ entities, x.char ≠ c) ∧ escapeChar entities c = [c] := by
  unfold escapeChar
  split
  · next x hfound =>
    exact .inl ⟨x, List.mem_of_find?_eq_some hfound, by simpa using List.find?_some hfound, rfl⟩
  · next hfound => exact .inr ⟨by simpa using hfound, rfl⟩

theorem escapeChar_of_ne (h : ∀ x ∈ entities, x.char ≠ c) : escapeChar entities c = [c] := by
  rcases escapeChar_cases entities c with ⟨x, hx, heq, -⟩ | ⟨-, heq⟩
  · exact absurd heq (h x hx)
  · exact heq

/-- Texts are read back with more entities than they were written with, too. -/
theorem replace_escape {all : List Entity} (h : Readable all) (hsub : entities ⊆ all)
    (hamp : amp ∈ entities) (s : List Char) : replace all (escape entities s) = s := by
  induction s with
  | nil => rw [escape, List.flatMap_nil, replace]
  | cons c s ih =>
    rw [escape_cons]
    rcases escapeChar_cases entities c with ⟨x, hx, rfl, heq⟩ | ⟨hnone, heq⟩
    · rw [heq, replace_written h (hsub hx), ih]
    · rw [heq, List.singleton_append, replace_cons_of_ne (hnone amp hamp).symm, ih]

theorem Readable.notMem_written (h : Readable entities) (hx : x ∈ entities) (hy : y ∈ entities)
    (hamp : x.char ≠ '&') : x.char ∉ y.written := by
  obtain ⟨halpha, hend⟩ := h.not_isAlpha_char x hx
  rw [written, List.mem_cons, List.mem_append, List.mem_singleton]
  rintro (heq | hname | heq)
  · exact hamp heq
  · exact h.notMem_name hy halpha hname
  · exact hend heq

theorem notMem_escape (h : Readable entities) (hx : x ∈ entities) (hamp : x.char ≠ '&')
    (s : List Char) : x.char ∉ escape entities s := by
  intro hmem
  obtain ⟨c, -, hc⟩ := List.mem_flatMap.1 hmem
  rcases escapeChar_cases entities c with ⟨y, hy, -, heq⟩ | ⟨hnone, heq⟩
  · exact h.notMem_written hx hy hamp (heq ▸ hc)
  · rw [heq, List.mem_singleton] at hc
    exact hnone x hx hc

theorem suffix_of_notMem {before rest after : List Char} (h : c ∉ before)
    (hsuffix : c :: after <:+ before ++ rest) : c :: after <:+ rest := by
  induction before with
  | nil => exact hsuffix
  | cons d before ih =>
    rw [List.mem_cons, not_or] at h
    rcases List.suffix_cons_iff.1 hsuffix with heq | hsuffix
    · exact absurd (List.cons.inj heq).1 h.1
    · exact ih h.2 hsuffix

theorem exists_of_suffix_escape (h : Readable entities) (hamp : amp ∈ entities)
    {after : List Char} (hsuffix : '&' :: after <:+ escape entities s) :
    ∃ x ∈ entities, x.written <+: '&' :: after := by
  induction s with
  | nil => exact absurd (List.suffix_nil.1 hsuffix) (List.cons_ne_nil _ _)
  | cons c s ih =>
    rw [escape_cons] at hsuffix
    rcases escapeChar_cases entities c with ⟨x, hx, -, heq⟩ | ⟨hnone, heq⟩
    · -- An entity has no second `&`, so the text begins with the entity or further behind.
      rw [heq, written, List.cons_append, List.suffix_cons_iff] at hsuffix
      rcases hsuffix with htext | hsuffix
      · exact ⟨x, hx, htext ▸ List.prefix_append x.written _⟩
      · refine ih (suffix_of_notMem ?_ hsuffix)
        rw [List.mem_append, not_or]
        exact ⟨h.notMem_name hx (by decide), by decide⟩
    · refine ih (suffix_of_notMem ?_ (heq ▸ hsuffix))
      exact fun hmem => hnone amp hamp (List.mem_singleton.1 hmem)

theorem isEscaped_escape (h : Readable entities) (hamp : amp ∈ entities) (s : List Char) :
    IsEscaped entities s (escape entities s) where
  eq_flatMap := rfl
  notMem _ hx hne := notMem_escape h hx hne s
  begins _ := exists_of_suffix_escape h hamp
  replace_eq := replace_escape h (List.Subset.refl _) hamp s

end Entity

end FormulaMarkup.Markup
