/-!
# Sets of code points, given by ranges
-/

namespace FormulaMarkup.Text

/-- Whether `n` lies in one of the ranges, both ends included. The ranges are in ascending order, so
the search stops at the first one that begins above `n`. -/
def inRanges (n : Nat) : List (Nat × Nat) → Bool
  | [] => false
  | (lo, hi) :: rest => lo ≤ n && (n ≤ hi || inRanges n rest)

theorem exists_of_inRanges {n : Nat} : {ranges : List (Nat × Nat)} → inRanges n ranges = true →
    ∃ range ∈ ranges, range.1 ≤ n ∧ n ≤ range.2
  | [], h => by simp [inRanges] at h
  | (lo, hi) :: rest, h => by
    simp only [inRanges, Bool.and_eq_true, Bool.or_eq_true, decide_eq_true_eq] at h
    rcases h with ⟨hlo, hhi | hrest⟩
    · exact ⟨(lo, hi), by simp, hlo, hhi⟩
    · obtain ⟨range, hmem, hin⟩ := exists_of_inRanges hrest
      exact ⟨range, List.mem_cons_of_mem _ hmem, hin⟩

end FormulaMarkup.Text
