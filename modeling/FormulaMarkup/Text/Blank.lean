import FormulaMarkup.Text.Ranges

/-!
# Blanks: the characters of the Unicode property `White_Space`
-/

namespace FormulaMarkup.Text

def blankRanges : List (Nat × Nat) :=
  [(0x09, 0x0D), (0x20, 0x20), (0x85, 0x85), (0xA0, 0xA0), (0x1680, 0x1680), (0x2000, 0x200A),
    (0x2028, 0x2029), (0x202F, 0x202F), (0x205F, 0x205F), (0x3000, 0x3000)]

/-- Blanks separate tokens and belong to none, unless they stand in verbatim text. -/
def isBlank (c : Char) : Bool := inRanges c.toNat blankRanges

/-- The input from its first character on that is not a blank. -/
def skipBlanks (s : List Char) : List Char := s.dropWhile isBlank

theorem length_skipBlanks_le (s : List Char) : (skipBlanks s).length ≤ s.length :=
  (List.dropWhile_sublist _).length_le

end FormulaMarkup.Text
