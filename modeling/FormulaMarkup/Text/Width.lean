/-!
# Widths and slices of text, counted in UTF-8 code units
-/

namespace FormulaMarkup.Text

/-- The width of a text is the sum of the widths of its characters. -/
def width : List Char → Nat
  | [] => 0
  | c :: s => c.utf8Size + width s

@[simp] theorem width_nil : width [] = 0 := rfl

@[simp] theorem width_cons (c : Char) (s : List Char) : width (c :: s) = c.utf8Size + width s := rfl

@[simp] theorem width_append (s t : List Char) : width (s ++ t) = width s + width t := by
  induction s with
  | nil => simp
  | cons c s ih => rw [List.cons_append, width_cons, width_cons, ih, Nat.add_assoc]

/-- The text without what begins before `start`. -/
def dropWidth : Nat → List Char → List Char
  | 0, s => s
  | _ + 1, [] => []
  | start + 1, c :: s => dropWidth (start + 1 - c.utf8Size) s

/-- The part of the text that begins before `stop`. -/
def takeWidth : Nat → List Char → List Char
  | 0, _ => []
  | _ + 1, [] => []
  | stop + 1, c :: s => c :: takeWidth (stop + 1 - c.utf8Size) s

/-- The part of a text from `start` to `stop`, both on character boundaries. -/
def slice (s : List Char) (start stop : Nat) : List Char :=
  takeWidth (stop - start) (dropWidth start s)

theorem dropWidth_append (s t : List Char) : dropWidth (width s) (s ++ t) = t := by
  induction s with
  | nil => cases t <;> rfl
  | cons c s ih =>
    obtain ⟨n, hn⟩ : ∃ n, c.utf8Size + width s = n + 1 :=
      Nat.exists_eq_add_one.2 (Nat.add_pos_left c.utf8Size_pos _)
    rw [width_cons, hn, List.cons_append, dropWidth, ← hn, Nat.add_sub_cancel_left, ih]

theorem takeWidth_append (s t : List Char) : takeWidth (width s) (s ++ t) = s := by
  induction s with
  | nil => cases t <;> rfl
  | cons c s ih =>
    obtain ⟨n, hn⟩ : ∃ n, c.utf8Size + width s = n + 1 :=
      Nat.exists_eq_add_one.2 (Nat.add_pos_left c.utf8Size_pos _)
    rw [width_cons, hn, List.cons_append, takeWidth, ← hn, Nat.add_sub_cancel_left, ih]

/-- The slice between two boundaries is what stands between them. -/
theorem slice_append (before s after : List Char) :
    slice (before ++ s ++ after) (width before) (width before + width s) = s := by
  rw [slice, List.append_assoc, dropWidth_append, Nat.add_sub_cancel_left, takeWidth_append]

end FormulaMarkup.Text
