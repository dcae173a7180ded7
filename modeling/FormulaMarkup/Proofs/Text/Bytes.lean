/-!
# Bytes of texts

A text is stored in UTF-8. Of a character beyond ASCII no byte is below 128, so the byte of an ASCII
character is found only where the character stands, and a text can be cut there.
-/

namespace FormulaMarkup.Text

def bytes (s : String) : List UInt8 := s.toByteArray.data.toList

/-- What stands before a byte index, and what stands from there on. There is no cut within a
character and none past the end. -/
def splitAt? (s : String) (index : Nat) : Option (String × String) :=
  if h : String.Pos.Raw.IsValid s ⟨index⟩ then
    some ((s.sliceTo ⟨⟨index⟩, h⟩).copy, (s.sliceFrom ⟨⟨index⟩, h⟩).copy)
  else
    none

variable {s : String} {b : UInt8} {c d : Char}

/-! ## Encoding -/

theorem bytes_eq_flatMap (s : String) : bytes s = s.toList.flatMap String.utf8EncodeChar := by
  rw [bytes, ← String.utf8Encode_toList, List.utf8Encode, List.data_toByteArray]

theorem bytes_append (s t : String) : bytes (s ++ t) = bytes s ++ bytes t := by
  simp only [bytes_eq_flatMap, String.toList_append, List.flatMap_append]

theorem length_bytes (s : String) : (bytes s).length = s.utf8ByteSize := rfl

theorem utf8EncodeChar_ascii (h : c.toNat < 128) : String.utf8EncodeChar c = [c.toUInt8] := by
  have hle : c.val.toNat ≤ 127 := Nat.le_of_lt_succ h
  rw [String.utf8EncodeChar, if_pos hle]
  rfl

theorem bytes_singleton (h : c.toNat < 128) : bytes (String.singleton c) = [c.toUInt8] := by
  rw [bytes_eq_flatMap, String.toList_singleton, List.flatMap_singleton, utf8EncodeChar_ascii h]

theorem le_toNat_ofNat {n : Nat} (h : 128 ≤ n) (h' : n < 256) : 128 ≤ (UInt8.ofNat n).toNat := by
  rwa [UInt8.toNat_ofNat_of_lt' h']

/-- The bytes of a character beyond ASCII have their first bit set. -/
theorem le_of_mem_utf8EncodeChar (h : 128 ≤ c.toNat) (hb : b ∈ String.utf8EncodeChar c) :
    128 ≤ b.toNat := by
  have hbeyond : ¬ c.val.toNat ≤ 127 := Nat.not_le.2 h
  rw [String.utf8EncodeChar, if_neg hbeyond] at hb
  -- Two, three or four bytes: the first is 192 or more, the others are 128 or more.
  split at hb
  · simp only [List.mem_cons, List.not_mem_nil, or_false] at hb
    rcases hb with rfl | rfl <;> exact le_toNat_ofNat (by omega) (by omega)
  · split at hb
    · simp only [List.mem_cons, List.not_mem_nil, or_false] at hb
      rcases hb with rfl | rfl | rfl <;> exact le_toNat_ofNat (by omega) (by omega)
    · simp only [List.mem_cons, List.not_mem_nil, or_false] at hb
      rcases hb with rfl | rfl | rfl | rfl <;> exact le_toNat_ofNat (by omega) (by omega)

theorem toNat_toUInt8 (h : c.toNat < 128) : c.toUInt8.toNat = c.toNat :=
  Nat.mod_eq_of_lt (Nat.lt_trans h (by decide))

/-- The byte of an ASCII character is in a text only if the character is. -/
theorem toUInt8_mem_bytes_iff (hd : d.toNat < 128) : d.toUInt8 ∈ bytes s ↔ d ∈ s.toList := by
  rw [bytes_eq_flatMap, List.mem_flatMap]
  constructor
  · rintro ⟨c, hc, hbyte⟩
    have hascii : c.toNat < 128 := by
      refine Nat.lt_of_not_le fun hbeyond => ?_
      have hle := le_of_mem_utf8EncodeChar hbeyond hbyte
      rw [toNat_toUInt8 hd] at hle
      exact Nat.not_le.2 hd hle
    rw [utf8EncodeChar_ascii hascii, List.mem_singleton] at hbyte
    have hcode : d.toNat = c.toNat := by
      rw [← toNat_toUInt8 hd, hbyte, toNat_toUInt8 hascii]
    rwa [Char.toNat_inj.1 hcode]
  · intro h
    exact ⟨d, h, by rw [utf8EncodeChar_ascii hd, List.mem_singleton]⟩

/-! ## Cuts -/

theorem splitAt?_eq_some_iff {index : Nat} {before behind : String} :
    splitAt? s index = some (before, behind) ↔
      s = before ++ behind ∧ before.utf8ByteSize = index := by
  unfold splitAt?
  constructor
  · intro h
    split at h
    · next hvalid =>
      cases h
      have hsplits := String.Pos.splits (s := s) ⟨⟨index⟩, hvalid⟩
      exact ⟨hsplits.eq_append, congrArg String.Pos.Raw.byteIdx hsplits.offset_eq_rawEndPos.symm⟩
    · cases h
  · rintro ⟨rfl, rfl⟩
    have hvalid : String.Pos.Raw.IsValid (before ++ behind) ⟨before.utf8ByteSize⟩ :=
      String.Pos.Raw.isValid_iff_exists_append.2 ⟨before, behind, rfl, rfl⟩
    have hsplits : String.Pos.Splits ⟨_, hvalid⟩ before behind := ⟨rfl, rfl⟩
    rw [dif_pos hvalid, hsplits.copy_sliceTo_eq, hsplits.copy_sliceFrom_eq]

end FormulaMarkup.Text
