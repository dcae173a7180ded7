import FormulaMarkup.Proofs.Token.Scan

/-!
# The longest beginning of a text

A number is the longest beginning of a text that has the form of one, and a word the longest that
the table has. So they are read again from any part of the text that they are a beginning of.
-/

namespace FormulaMarkup

namespace Text

/-- `s` is the longest beginning of the text that has the property. -/
structure IsLongest (p : List Char → Prop) (text s : List Char) : Prop where
  beginning : s <+: text
  holds : p s
  longest : ∀ r, r <+: text → p r → r.length ≤ s.length

namespace IsLongest

variable {p : List Char → Prop} {text part s t : List Char}

theorem unique (hs : IsLongest p text s) (ht : IsLongest p text t) : s = t := by
  have hle := ht.longest s hs.beginning hs.holds
  have hge := hs.longest t ht.beginning ht.holds
  have hbeginning := List.prefix_of_prefix_length_le hs.beginning ht.beginning hle
  exact hbeginning.eq_of_length (Nat.le_antisymm hle hge)

theorem of_part (h : IsLongest p text s) (hs : s <+: part) (hpart : part <+: text) :
    IsLongest p part s :=
  ⟨hs, h.holds, fun r hr => h.longest r (hr.trans hpart)⟩

end IsLongest

end Text

namespace Scan

/-! ## Numbers -/

def AreDigits (s : List Char) : Prop := ∀ c ∈ s, c.isDigit = true

/-- Digits, then perhaps a point, then at least one digit. -/
def IsUnsigned (s : List Char) : Prop :=
  ∃ whole point decimals, s = whole ++ (point ++ decimals) ∧ (point = [] ∨ point = ['.']) ∧
    AreDigits whole ∧ AreDigits decimals ∧ decimals ≠ []

/-- A number, which has a sign only if it may have one. -/
def IsNumber (signed : Prop) (s : List Char) : Prop :=
  IsUnsigned s ∨ signed ∧ ∃ digits, s = '-' :: digits ∧ IsUnsigned digits

variable {s r : List Char}

theorem areDigits_takeWhile (s : List Char) : AreDigits (s.takeWhile Char.isDigit) :=
  List.all_eq_true.1 List.all_takeWhile

theorem IsUnsigned.ne_nil (h : IsUnsigned s) : s ≠ [] := by
  obtain ⟨whole, point, decimals, rfl, -, -, -, hdecimals⟩ := h
  simp [hdecimals]

theorem IsNumber.ne_nil {signed : Prop} (h : IsNumber signed s) : s ≠ [] := by
  rcases h with hunsigned | ⟨-, digits, rfl, -⟩
  · exact hunsigned.ne_nil
  · exact List.cons_ne_nil _ _

theorem isUnsigned_unsigned (h : unsigned s ≠ []) : IsUnsigned (unsigned s) := by
  rcases unsigned_eq s with heq | ⟨t, -, hdecimals, heq⟩
  · rw [heq] at h ⊢
    exact ⟨[], [], _, rfl, .inl rfl, List.forall_mem_nil _, areDigits_takeWhile s, h⟩
  · rw [heq]
    exact ⟨_, ['.'], _, rfl, .inr rfl, areDigits_takeWhile s, areDigits_takeWhile t, hdecimals⟩

theorem takeWhile_isBeginning_unsigned (s : List Char) :
    s.takeWhile Char.isDigit <+: unsigned s := by
  rcases unsigned_eq s with heq | ⟨t, -, -, heq⟩
  · exact ⟨[], by rw [heq, List.append_nil]⟩
  · exact ⟨_, heq.symm⟩

/-- Digits after a point belong to the number. -/
theorem unsigned_point {whole decimals : List Char} (hwhole : AreDigits whole)
    (hdecimals : AreDigits decimals) (hne : decimals ≠ []) (t : List Char) :
    unsigned (whole ++ '.' :: (decimals ++ t)) =
      whole ++ '.' :: (decimals ++ t.takeWhile Char.isDigit) := by
  have hpoint : ('.').isDigit = false := by decide
  have hdrop : (whole ++ '.' :: (decimals ++ t)).dropWhile Char.isDigit =
      '.' :: (decimals ++ t) := by
    rw [List.dropWhile_append_of_pos hwhole, List.dropWhile_cons_of_neg (by simp [hpoint])]
  have htake : (whole ++ '.' :: (decimals ++ t)).takeWhile Char.isDigit = whole := by
    rw [List.takeWhile_append_of_pos hwhole, List.takeWhile_cons_of_neg (by simp [hpoint]),
      List.append_nil]
  unfold unsigned
  rw [hdrop, htake]
  simp only [List.takeWhile_append_of_pos hdecimals]
  cases decimals with
  | nil => exact absurd rfl hne
  | cons c decimals => rfl

theorem length_le_unsigned (hr : r <+: s) (h : IsUnsigned r) :
    r.length ≤ (unsigned s).length := by
  obtain ⟨t, rfl⟩ := hr
  obtain ⟨whole, point, decimals, rfl, hpoint, hwhole, hdecimals, hne⟩ := h
  rcases hpoint with rfl | rfl
  · have hdigits : AreDigits (whole ++ decimals) := by
      intro c hc
      rcases List.mem_append.1 hc with hc | hc
      · exact hwhole c hc
      · exact hdecimals c hc
    have hle := (takeWhile_isBeginning_unsigned (whole ++ decimals ++ t)).length_le
    rw [List.takeWhile_append_of_pos hdigits, List.length_append] at hle
    exact Nat.le_trans (Nat.le_add_right _ _) hle
  · have heq := unsigned_point hwhole hdecimals hne t
    simp only [List.append_assoc, List.cons_append, List.nil_append, heq, List.length_append,
      List.length_cons]
    omega

theorem IsUnsigned.unsigned_ne_nil (h : IsUnsigned r) (hr : r <+: s) : unsigned s ≠ [] := by
  intro hnil
  have hle := length_le_unsigned hr h
  rw [hnil] at hle
  exact h.ne_nil (List.eq_nil_of_length_eq_zero (Nat.le_zero.1 hle))

theorem unsigned_minus (s : List Char) : unsigned ('-' :: s) = [] := by
  simp [unsigned, Char.isDigit]

variable {operandBefore : Bool} {n : Numeral}

theorem exists_numeral? (negative : Bool) {digits : List Char} (h : digits ≠ []) :
    ∃ n, numeral? negative digits = some n ∧ n.negative = negative ∧ n.digits.toList = digits := by
  cases digits with
  | nil => exact absurd rfl h
  | cons c digits => exact ⟨_, rfl, rfl, String.toList_ofList⟩

theorem toList_raw_of_plain (h : n.negative = false) : n.raw.toList = n.digits.toList := by
  simp [Numeral.raw, h]

theorem toList_raw_of_negative (h : n.negative = true) : n.raw.toList = '-' :: n.digits.toList := by
  simp [Numeral.raw, h]

/-- Where a number begins, one is read, and none that is shorter. -/
theorem exists_number? (hr : r <+: s) (h : IsNumber (operandBefore = false) r) :
    ∃ n, number? operandBefore s = some n ∧ r.length ≤ n.raw.toList.length := by
  rcases h with hunsigned | ⟨rfl, digits, rfl, hunsigned⟩
  · have hplain : operandBefore = false → s.head? ≠ some '-' := by
      intro _ hhead
      obtain ⟨t, rfl⟩ := List.head?_eq_some_iff.1 hhead
      exact hunsigned.unsigned_ne_nil hr (unsigned_minus t)
    obtain ⟨n, hn, hnegative, hdigits⟩ := exists_numeral? false (hunsigned.unsigned_ne_nil hr)
    rw [number?_of_plain hplain]
    refine ⟨n, hn, ?_⟩
    rw [toList_raw_of_plain hnegative, hdigits]
    exact length_le_unsigned hr hunsigned
  · obtain ⟨t, rfl⟩ := hr
    have hdigits := List.prefix_append digits t
    obtain ⟨n, hn, hnegative, hread⟩ := exists_numeral? true (hunsigned.unsigned_ne_nil hdigits)
    refine ⟨n, hn, ?_⟩
    rw [toList_raw_of_negative hnegative, hread]
    exact Nat.succ_le_succ (length_le_unsigned hdigits hunsigned)

/-- What is read is a number. -/
theorem isNumber_of_number? (h : number? operandBefore s = some n) :
    IsNumber (operandBefore = false) n.raw.toList := by
  have hne : n.digits.toList ≠ [] := by
    rw [Ne, String.toList_eq_nil_iff]
    exact n.nonempty
  rcases number?_eq h with ⟨hnegative, hdigits⟩ | ⟨t, -, hbefore, hnegative, hdigits⟩
  · rw [toList_raw_of_plain hnegative, hdigits]
    rw [hdigits] at hne
    exact .inl (isUnsigned_unsigned hne)
  · rw [toList_raw_of_negative hnegative, hdigits]
    rw [hdigits] at hne
    exact .inr ⟨hbefore, _, rfl, isUnsigned_unsigned hne⟩

/-- The number that is read is the longest beginning that is a number. -/
theorem number?_isLongest (h : number? operandBefore s = some n) :
    Text.IsLongest (IsNumber (operandBefore = false)) s n.raw.toList := by
  refine ⟨number?_isBeginning h, isNumber_of_number? h, fun r hr hnumber => ?_⟩
  obtain ⟨m, hm, hle⟩ := exists_number? hr hnumber
  rw [h] at hm
  cases hm
  exact hle

theorem not_isNumber_of_number? (h : number? operandBefore s = none) (hr : r <+: s) :
    ¬ IsNumber (operandBefore = false) r := by
  intro hnumber
  obtain ⟨n, hn, -⟩ := exists_number? hr hnumber
  rw [h] at hn
  cases hn

theorem numeral_ext {n m : Numeral} (hnegative : n.negative = m.negative)
    (hdigits : n.digits.toList = m.digits.toList) : n = m := by
  obtain ⟨negative, digits, hn⟩ := n
  obtain ⟨negative', digits', hm⟩ := m
  cases hnegative
  cases String.toList_injective hdigits
  rfl

/-- Numbers that are written alike are alike, since no digit is a sign. -/
theorem numeral_eq_of_raw {s' : List Char} {before before' : Bool} {m : Numeral}
    (hn : number? before s = some n) (hm : number? before' s' = some m)
    (h : n.raw.toList = m.raw.toList) : n = m := by
  have hsign := number?_digits hn '-'
  have hsign' := number?_digits hm '-'
  cases hnegative : n.negative <;> cases hnegative' : m.negative
  · rw [toList_raw_of_plain hnegative, toList_raw_of_plain hnegative'] at h
    exact numeral_ext (hnegative.trans hnegative'.symm) h
  · rw [toList_raw_of_plain hnegative, toList_raw_of_negative hnegative'] at h
    exact absurd rfl (hsign (h ▸ List.mem_cons_self))
  · rw [toList_raw_of_negative hnegative, toList_raw_of_plain hnegative'] at h
    exact absurd rfl (hsign' (h ▸ List.mem_cons_self))
  · rw [toList_raw_of_negative hnegative, toList_raw_of_negative hnegative'] at h
    exact numeral_ext (hnegative.trans hnegative'.symm) (List.cons.inj h).2

/-- The number is read again from any part of the text that begins with it. -/
theorem number?_of_part {part : List Char} (hpart : part <+: s)
    (h : ∀ n, number? operandBefore s = some n → n.raw.toList <+: part) :
    number? operandBefore part = number? operandBefore s := by
  cases hs : number? operandBefore s with
  | none =>
    cases hp : number? operandBefore part with
    | none => rfl
    | some m =>
      have hlongest := number?_isLongest hp
      exact absurd hlongest.holds (not_isNumber_of_number? hs (hlongest.beginning.trans hpart))
  | some n =>
    have hlongest := (number?_isLongest hs).of_part (h n hs) hpart
    cases hp : number? operandBefore part with
    | none => exact absurd hlongest.holds (not_isNumber_of_number? hp hlongest.beginning)
    | some m => rw [numeral_eq_of_raw hp hs ((number?_isLongest hp).unique hlongest)]

end Scan

/-! ## Words -/

namespace Word

/-- The table has the text. -/
def IsSpelling (s : List Char) : Prop := (Symbol.lookup (String.ofList s)).isSome = true

variable {s r : List Char} {word : Word} {n : Nat}

theorem isSpelling (word : Word) : IsSpelling word.spelling.toList := by
  rw [IsSpelling, String.ofList_toList, word.known]
  rfl

theorem lookup_of_ofSpelling? {spelling : String} (h : ofSpelling? spelling = none) :
    Symbol.lookup spelling = none := by
  unfold ofSpelling? at h
  split at h
  · next hlookup => exact hlookup
  · cases h

theorem IsSpelling.exists_word (h : IsSpelling s) : ∃ word : Word, word.spelling.toList = s := by
  obtain ⟨symbol, hsymbol⟩ := Option.isSome_iff_exists.1 h
  exact ⟨⟨String.ofList s, symbol, hsymbol⟩, String.toList_ofList⟩

theorem IsSpelling.ne_nil (h : IsSpelling s) : s ≠ [] := by
  obtain ⟨word, rfl⟩ := h.exists_word
  rw [Ne, String.toList_eq_nil_iff]
  exact word.spelling_ne_empty

/-- No spelling is too long to be looked for. -/
theorem IsSpelling.length_le (h : IsSpelling s) : s.length ≤ Symbol.maxLength := by
  obtain ⟨word, rfl⟩ := h.exists_word
  rw [String.length_toList]
  exact word.length_spelling_le

theorem exists_longestUpTo (hr : r <+: s) (hlength : r.length ≤ n) (h : IsSpelling r) :
    ∃ word, longestUpTo n s = some word ∧ r.length ≤ word.spelling.toList.length := by
  induction n with
  | zero => exact absurd (List.eq_nil_of_length_eq_zero (Nat.le_zero.1 hlength)) h.ne_nil
  | succ n ih =>
    rw [longestUpTo]
    split
    · next word hword =>
      refine ⟨word, rfl, ?_⟩
      rw [spelling_of_ofSpelling? hword, String.toList_ofList, List.length_take]
      exact Nat.le_min.2 ⟨hlength, hr.length_le⟩
    · next hnone =>
      rcases Nat.lt_or_eq_of_le hlength with hlt | heq
      · exact ih (Nat.le_of_lt_succ hlt)
      · rw [← heq, ← List.prefix_iff_eq_take.1 hr] at hnone
        rw [IsSpelling, lookup_of_ofSpelling? hnone] at h
        cases h

/-- Where a spelling begins, a word is read, and none that is shorter, however long the spelling
is. -/
theorem exists_longest? (hr : r <+: s) (h : IsSpelling r) :
    ∃ word, longest? s = some word ∧ r.length ≤ word.spelling.toList.length :=
  exists_longestUpTo hr h.length_le h

/-- The word that is read is the longest beginning that the table has. -/
theorem longest?_isLongest (h : longest? s = some word) :
    Text.IsLongest IsSpelling s word.spelling.toList := by
  refine ⟨longestUpTo_isBeginning h, word.isSpelling, fun r hr hspelling => ?_⟩
  obtain ⟨found, hfound, hle⟩ := exists_longest? hr hspelling
  rw [h] at hfound
  cases hfound
  exact hle

theorem not_isSpelling_of_longest? (h : longest? s = none) (hr : r <+: s) : ¬ IsSpelling r := by
  intro hspelling
  obtain ⟨word, hword, -⟩ := exists_longest? hr hspelling
  rw [h] at hword
  cases hword

/-- The word is read again from any part of the text that begins with it. -/
theorem longest?_of_part {part : List Char} (hpart : part <+: s)
    (h : ∀ word, longest? s = some word → word.spelling.toList <+: part) :
    longest? part = longest? s := by
  cases hs : longest? s with
  | none =>
    cases hp : longest? part with
    | none => rfl
    | some found =>
      have hlongest := longest?_isLongest hp
      exact absurd hlongest.holds (not_isSpelling_of_longest? hs (hlongest.beginning.trans hpart))
  | some word =>
    have hlongest := (longest?_isLongest hs).of_part (h word hs) hpart
    cases hp : longest? part with
    | none => exact absurd hlongest.holds (not_isSpelling_of_longest? hp hlongest.beginning)
    | some found =>
      have heq := (longest?_isLongest hp).unique hlongest
      rw [eq_of_spelling (String.toList_injective heq)]

theorem longest?_spelling (word : Word) : longest? word.spelling.toList = some word := by
  obtain ⟨found, hfound, -⟩ := exists_longest? List.prefix_rfl word.isSpelling
  have hword : Text.IsLongest IsSpelling word.spelling.toList word.spelling.toList :=
    ⟨List.prefix_rfl, word.isSpelling, fun r hr _ => hr.length_le⟩
  have heq := (longest?_isLongest hfound).unique hword
  rw [hfound, eq_of_spelling (String.toList_injective heq)]

/-- No word begins with a number or with verbatim text. -/
theorem spelling_plain (word : Word) : Scan.number? false word.spelling.toList = none ∧
    word.spelling.toList.head? ≠ some '\x22' := by
  have h : ∀ entry ∈ Symbol.entries, Scan.number? false entry.1.toList = none ∧
      entry.1.toList.head? ≠ some '\x22' := by
    decide +kernel
  exact h _ word.mem_entries

/-- No closing bracket begins like one that opens verbatim text. -/
theorem closing_opensNothing {word : Word} (role : word.role = .closeBracket) :
    word.spelling.toList.head?.bind Scan.closing? = none := by
  have h : ∀ entry ∈ Symbol.entries, entry.2.role = .closeBracket →
      entry.1.toList.head?.bind Scan.closing? = none := by
    decide +kernel
  exact h _ word.mem_entries role

end Word

end FormulaMarkup
