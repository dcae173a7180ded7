import FormulaMarkup.Fragment.Script

/-!
# The order of scripts in the markup

In each level of a chain the subscript comes first, whichever marker stood first in the input.
-/

namespace FormulaMarkup.ScriptLevel

def nodes : ScriptLevel → List Node
  | sub a => [a]
  | sup b => [b]
  | both a b => [a, b]

/-- The entries of a chain in the order of the markup. -/
def arrange {α : Type} : List (Marker × α) → List (Marker × α)
  | [] => []
  | [entry] => [entry]
  | (.sub, a) :: (.sup, b) :: chain => (.sub, a) :: (.sup, b) :: arrange chain
  | (.sup, a) :: (.sub, b) :: chain => (.sub, b) :: (.sup, a) :: arrange chain
  | entry :: next :: chain => entry :: arrange (next :: chain)

@[simp] theorem nodes_one (marker : Marker) (node : Node) : (one marker node).nodes = [node] := by
  cases marker <;> rfl

theorem flatMap_nodes_ofChain (chain : List (Marker × Node)) :
    (ofChain chain).flatMap nodes = (arrange chain).map (·.2) := by
  fun_induction ofChain chain with
  | case1 => rfl
  | case2 marker a => simp [arrange]
  | case3 a b chain ih => exact congrArg (a :: b :: ·) ih
  | case4 a b chain ih => exact congrArg (b :: a :: ·) ih
  | case5 marker a next chain hsub hsup ih =>
    rw [arrange, List.flatMap_cons, List.map_cons, nodes_one, ih]
    · rfl
    · rintro a' b' h ⟨⟩
      exact hsub b' (congrArg Prod.fst h) rfl
    · rintro a' b' h ⟨⟩
      exact hsup b' (congrArg Prod.fst h) rfl

/-- Only the order changes. -/
theorem arrange_perm {α : Type} (chain : List (Marker × α)) : (arrange chain).Perm chain := by
  fun_induction arrange chain with
  | case1 => exact .nil
  | case2 entry => exact .refl _
  | case3 a b chain ih => exact (ih.cons _).cons _
  | case4 a b chain ih => exact ((ih.cons _).cons _).trans (.swap _ _ _)
  | case5 entry next chain _ _ ih => exact ih.cons _

/-- The order depends on the markers only. -/
theorem arrange_map {α β : Type} (f : α → β) (chain : List (Marker × α)) :
    arrange (chain.map fun entry => (entry.1, f entry.2)) =
      (arrange chain).map fun entry => (entry.1, f entry.2) := by
  fun_induction arrange chain with
  | case1 => rfl
  | case2 entry => rfl
  | case3 a b chain ih => simp [arrange, ih]
  | case4 a b chain ih => simp [arrange, ih]
  | case5 entry next chain hsub hsup ih =>
    obtain ⟨marker, a⟩ := entry
    obtain ⟨marker', b⟩ := next
    cases marker <;> cases marker'
    · simpa [arrange] using ih
    · exact absurd rfl (hsub a b rfl)
    · exact absurd rfl (hsup a b rfl)
    · simpa [arrange] using ih

end FormulaMarkup.ScriptLevel
