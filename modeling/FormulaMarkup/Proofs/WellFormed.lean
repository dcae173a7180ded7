import FormulaMarkup.Proofs.Construction

/-!
# The markup of every input is well formed

What is built from inline nodes is inline again, so the shape of the whole follows from the way in
which it is built.
-/

namespace FormulaMarkup

theorem Formula.nodes_inline (formula : List Term) : ∀ node ∈ Formula.nodes formula, node.Inline :=
  fun node hnode => (Formula.nodes_built formula node hnode).inline

/-- The whole is one style in one formula, and every node below has the right shape. -/
theorem wellFormed_compile (settings : Settings) (input : String) :
    (compile settings input).element = .math ∧ (compile settings input).text = none ∧
      (∃ style, (compile settings input).children = [style] ∧ style.element = .mstyle) ∧
      (compile settings input).WellFormed := by
  have hrow : (Node.container .mstyle (Formula.nodes (Formula.ofInput input))).Inline :=
    Node.layout_inline rfl (by simp [Element.arity?]) (Formula.nodes_inline _)
  have hstyle := hrow.withAttributes settings.styleAttributes
  exact ⟨rfl, rfl, ⟨_, rfl, rfl⟩, Node.math_wellFormed hstyle⟩

end FormulaMarkup
