import FormulaMarkup.Proofs.Markup.Unescape
import FormulaMarkup.Proofs.Text.Bytes

/-!
# Escaping in passing

A text is escaped on its way to the end of a buffer. Content goes there in pieces: a search over the
bytes finds the next character to be written by name, and what stands before it goes as it is.
Attribute values go character by character. Either way the text at the end of the buffer is the one
that has each character replaced on its own.
-/

namespace FormulaMarkup.Markup

/-! ## The walks -/

/-- A search for the first of three bytes, which gives its index. -/
structure FindsFirst (search : UInt8 → UInt8 → UInt8 → List UInt8 → Option Nat) : Prop where
  absent : ∀ {a b c bytes}, search a b c bytes = none → ∀ x ∈ bytes, x ∉ [a, b, c]
  first : ∀ {a b c bytes index}, search a b c bytes = some index →
    ∃ before x behind, bytes = before ++ x :: behind ∧ before.length = index ∧ x ∈ [a, b, c] ∧
      ∀ y ∈ before, y ∉ [a, b, c]

def firstOf (a b c : UInt8) (bytes : List UInt8) : Option Nat := bytes.findIdx? (· ∈ [a, b, c])

/-- What stands before the byte at an index, the byte, and what follows it. -/
def splitAround? (s : String) (index : Nat) : Option (String × UInt8 × String) := do
  let (before, rest) ← Text.splitAt? s index
  let byte ← (Text.bytes rest).head?
  let (_, behind) ← Text.splitAt? rest 1
  return (before, byte, behind)

theorem utf8ByteSize_lt_of_splitAround? {s before behind : String} {index : Nat} {byte : UInt8}
    (h : splitAround? s index = some (before, byte, behind)) :
    behind.utf8ByteSize < s.utf8ByteSize := by
  obtain ⟨⟨_, rest⟩, hrest, h⟩ := Option.bind_eq_some_iff.1 h
  obtain ⟨_, -, h⟩ := Option.bind_eq_some_iff.1 h
  obtain ⟨⟨first, _⟩, hbehind, h⟩ := Option.bind_eq_some_iff.1 h
  cases h
  obtain ⟨rfl, -⟩ := Text.splitAt?_eq_some_iff.1 hrest
  obtain ⟨rfl, hfirst⟩ := Text.splitAt?_eq_some_iff.1 hbehind
  simp only [String.utf8ByteSize_append]
  omega

def entityOfByte (byte : UInt8) : String :=
  if byte = '&'.toUInt8 then "&amp;" else if byte = '<'.toUInt8 then "&lt;" else "&gt;"

/-- Writes a text to the end of `output` as content, piece by piece. It comes to nothing if a piece
would end within a character. -/
def writeContent (search : UInt8 → UInt8 → UInt8 → List UInt8 → Option Nat)
    (output rest : String) : Option String :=
  match search '&'.toUInt8 '<'.toUInt8 '>'.toUInt8 (Text.bytes rest) with
  | none => some (output ++ rest)
  | some index =>
    match _h : splitAround? rest index with
    | some (before, byte, behind) =>
      writeContent search (output ++ before ++ entityOfByte byte) behind
    | none => none
termination_by rest.utf8ByteSize
decreasing_by exact utf8ByteSize_lt_of_splitAround? _h

def pushAttribute (output : String) (c : Char) : String :=
  match c with
  | '&' => output ++ "&amp;"
  | '\x22' => output ++ "&quot;"
  | '<' => output ++ "&lt;"
  | c => output.push c

/-- Writes a text to the end of `output` as an attribute value, character by character. -/
def writeAttribute (output s : String) : String := s.foldl pushAttribute output

/-- The text as content: each character is replaced on its own. -/
def content (s : String) : String := String.ofList (escapeContent s.toList)

/-- The text as an attribute value. -/
def attributeValue (s : String) : String := String.ofList (escapeAttribute s.toList)

variable {search : UInt8 → UInt8 → UInt8 → List UInt8 → Option Nat} {before s : String} {c : Char}

/-! ## Searching -/

namespace FindsFirst

variable {x y z : UInt8} {bytes : List UInt8}

theorem eq_none (h : FindsFirst search) (hbytes : ∀ b ∈ bytes, b ∉ [x, y, z]) :
    search x y z bytes = none := by
  cases hsearch : search x y z bytes with
  | none => rfl
  | some index =>
    obtain ⟨before, b, behind, rfl, -, hb, -⟩ := h.first hsearch
    exact absurd hb (hbytes b (List.mem_append_right _ List.mem_cons_self))

/-- A list is cut only once where the first of three bytes stands. -/
theorem takeWhile_eq {start : List UInt8} {b : UInt8} (hstart : ∀ d ∈ start, d ∉ [x, y, z])
    (hb : b ∈ [x, y, z]) (rest : List UInt8) :
    (start ++ b :: rest).takeWhile (· ∉ [x, y, z]) = start := by
  rw [List.takeWhile_append_of_pos fun d hd => decide_eq_true (hstart d hd),
    List.takeWhile_cons_of_neg (by rw [decide_eq_true_iff]; exact not_not_intro hb),
    List.append_nil]

theorem eq_some (h : FindsFirst search) {start : List UInt8} {b : UInt8}
    (hstart : ∀ d ∈ start, d ∉ [x, y, z]) (hb : b ∈ [x, y, z]) (rest : List UInt8) :
    search x y z (start ++ b :: rest) = some start.length := by
  cases hsearch : search x y z (start ++ b :: rest) with
  | none => exact absurd hb (h.absent hsearch b (List.mem_append_right _ List.mem_cons_self))
  | some index =>
    obtain ⟨first, d, behind, htext, rfl, hd, hfirst⟩ := h.first hsearch
    rw [← takeWhile_eq hstart hb rest, htext, takeWhile_eq hfirst hd]

end FindsFirst

theorem findsFirst_firstOf : FindsFirst firstOf where
  absent h x hx := by simpa using List.findIdx?_eq_none_iff.1 h x hx
  first {a b c bytes index} h := by
    obtain ⟨hlt, hbyte, hbefore⟩ := List.findIdx?_eq_some_iff_getElem.1 h
    refine ⟨bytes.take index, bytes[index], bytes.drop (index + 1), ?_,
      List.length_take_of_le (Nat.le_of_lt hlt), of_decide_eq_true hbyte, fun y hy => ?_⟩
    · rw [← List.drop_eq_getElem_cons, List.take_append_drop]
    · obtain ⟨i, hi, rfl⟩ := List.mem_take_iff_getElem.1 hy
      simpa using hbefore i (Nat.lt_of_lt_of_le hi (Nat.min_le_left _ _))

/-! ## The first piece -/

def contentSpecials : List Char := ['&', '<', '>']

theorem toNat_lt_of_special (h : c ∈ contentSpecials) : c.toNat < 128 := by
  simp only [contentSpecials, List.mem_cons, List.not_mem_nil, or_false] at h
  rcases h with rfl | rfl | rfl <;> decide

/-- Without special characters in the text, no byte is one of theirs. -/
theorem not_special_byte (hs : ∀ c ∈ s.toList, c ∉ contentSpecials) :
    ∀ b ∈ Text.bytes s, b ∉ contentSpecials.map Char.toUInt8 := by
  intro b hb hspecial
  obtain ⟨c, hc, rfl⟩ := List.mem_map.1 hspecial
  exact hs c ((Text.toUInt8_mem_bytes_iff (toNat_lt_of_special hc)).1 hb) hc

theorem bytes_special (hc : c ∈ contentSpecials) (behind : String) :
    Text.bytes (String.singleton c ++ behind) = c.toUInt8 :: Text.bytes behind := by
  rw [Text.bytes_append, Text.bytes_singleton (toNat_lt_of_special hc), List.singleton_append]

theorem splitAround?_special (hc : c ∈ contentSpecials) (before behind : String) :
    splitAround? (before ++ (String.singleton c ++ behind)) before.utf8ByteSize =
      some (before, c.toUInt8, behind) := by
  have hrest : Text.splitAt? (before ++ (String.singleton c ++ behind)) before.utf8ByteSize =
      some (before, String.singleton c ++ behind) :=
    Text.splitAt?_eq_some_iff.2 ⟨rfl, rfl⟩
  have hwidth : (String.singleton c).utf8ByteSize = 1 := by
    rw [← Text.length_bytes, Text.bytes_singleton (toNat_lt_of_special hc), List.length_singleton]
  have hbehind : Text.splitAt? (String.singleton c ++ behind) 1 =
      some (String.singleton c, behind) :=
    Text.splitAt?_eq_some_iff.2 ⟨rfl, hwidth⟩
  simp only [splitAround?, hrest, hbehind, bytes_special hc, List.head?_cons, Option.bind_eq_bind,
    Option.bind_some, Option.pure_def]

/-- A text without special characters is written in one piece. -/
theorem writeContent_plain (h : FindsFirst search) (hs : ∀ c ∈ s.toList, c ∉ contentSpecials)
    (output : String) : writeContent search output s = some (output ++ s) := by
  have hsearch := h.eq_none (not_special_byte hs)
  rw [writeContent, hsearch]

/-- Up to its first special character a text is written as it is, and the search goes on behind. -/
theorem writeContent_special (h : FindsFirst search)
    (hbefore : ∀ c ∈ before.toList, c ∉ contentSpecials) (hc : c ∈ contentSpecials)
    (output behind : String) :
    writeContent search output (before ++ (String.singleton c ++ behind)) =
      writeContent search (output ++ before ++ entityOfByte c.toUInt8) behind := by
  have hsearch := h.eq_some (not_special_byte hbefore) (List.mem_map_of_mem hc)
    (Text.bytes behind)
  rw [← bytes_special hc, ← Text.bytes_append, Text.length_bytes] at hsearch
  have hsplit := splitAround?_special hc before behind
  rw [writeContent, hsearch]
  -- The index is a boundary of characters, so the cut does not fail.
  dsimp only
  split
  · next hfound => rw [hsplit] at hfound; cases hfound; rfl
  · next hfound => rw [hsplit] at hfound; cases hfound

/-! ## Character by character -/

theorem content_append (s t : String) : content (s ++ t) = content s ++ content t := by
  rw [content, String.toList_append, escapeContent_append, String.ofList_append, content, content]

theorem attributeValue_append (s t : String) :
    attributeValue (s ++ t) = attributeValue s ++ attributeValue t := by
  rw [attributeValue, String.toList_append, escapeAttribute_append, String.ofList_append,
    attributeValue, attributeValue]

theorem contentChar_of_notMem (hc : c ∉ contentSpecials) : contentChar c = [c] := by
  rw [contentChar_eq]
  refine Entity.escapeChar_of_ne fun x hx hchar => hc ?_
  exact hchar ▸ List.mem_map_of_mem (f := Entity.char) hx

theorem content_plain (hs : ∀ c ∈ s.toList, c ∉ contentSpecials) : content s = s := by
  rw [content, escapeContent, List.flatMap_congr fun c hc => contentChar_of_notMem (hs c hc),
    List.flatMap_singleton', String.ofList_toList]

theorem content_special (hc : c ∈ contentSpecials) :
    content (String.singleton c) = entityOfByte c.toUInt8 := by
  simp only [contentSpecials, List.mem_cons, List.not_mem_nil, or_false] at hc
  rcases hc with rfl | rfl | rfl <;> rfl

theorem pushAttribute_eq (output : String) (c : Char) :
    pushAttribute output c = output ++ String.ofList (attributeChar c) := by
  unfold pushAttribute
  split
  · rfl
  · rfl
  · rfl
  · next hamp hquot hlt =>
    rw [String.push_eq_append, String.singleton_eq_ofList, attributeChar]
    · exact hamp
    · exact hquot
    · exact hlt

/-! ## Both walks -/

/-- A text has no special character, or else a first one. -/
theorem plain_or_special (s : String) :
    (∀ c ∈ s.toList, c ∉ contentSpecials) ∨
      ∃ before c behind, s = before ++ (String.singleton c ++ behind) ∧ c ∈ contentSpecials ∧
        ∀ d ∈ before.toList, d ∉ contentSpecials := by
  cases hfind : s.toList.find? (· ∈ contentSpecials) with
  | none => exact .inl (by simpa using hfind)
  | some c =>
    obtain ⟨hc, before, behind, htext, hbefore⟩ := List.find?_eq_some_iff_append.1 hfind
    refine .inr ⟨String.ofList before, c, String.ofList behind, ?_, by simpa using hc,
      by simpa using hbefore⟩
    rw [← String.toList_inj, htext]
    simp

/-- What holds of a text without special characters, and of any other one if it holds of what
follows its first special character, holds of all texts. -/
@[elab_as_elim]
theorem pieces_induction {motive : String → Prop}
    (plain : ∀ s, (∀ c ∈ s.toList, c ∉ contentSpecials) → motive s)
    (special : ∀ before c behind, (∀ d ∈ before.toList, d ∉ contentSpecials) →
      c ∈ contentSpecials → motive behind → motive (before ++ (String.singleton c ++ behind)))
    (s : String) : motive s := by
  rcases plain_or_special s with hs | ⟨before, c, behind, hs, hc, hbefore⟩
  · exact plain s hs
  · rw [hs]
    exact special before c behind hbefore hc (pieces_induction plain special behind)
termination_by s.length
decreasing_by
  simp only [hs, String.length_append, String.length_singleton]
  omega

/-- The search writes what stands for each character, and never ends a piece within one. -/
theorem writeContent_eq (h : FindsFirst search) (output s : String) :
    writeContent search output s = some (output ++ content s) := by
  induction s using pieces_induction generalizing output with
  | plain s hs => rw [writeContent_plain h hs, content_plain hs]
  | special before c behind hbefore hc ih =>
    rw [writeContent_special h hbefore hc, ih, content_append, content_append,
      content_plain hbefore, content_special hc, String.append_assoc, String.append_assoc]

theorem writeAttribute_eq (output s : String) :
    writeAttribute output s = output ++ attributeValue s := by
  rw [writeAttribute, String.foldl_eq_foldl_toList, attributeValue, escapeAttribute]
  induction s.toList generalizing output with
  | nil => rw [List.foldl_nil, List.flatMap_nil, String.ofList_nil, String.append_empty]
  | cons c s ih =>
    rw [List.foldl_cons, ih, pushAttribute_eq, List.flatMap_cons, String.ofList_append,
      String.append_assoc]

/-- Both walks put an escaped text to the end of the buffer, whatever is in it: the one that has
each character replaced on its own. Of texts one after the other the escaped texts follow one
another. -/
theorem write_isEscaped (h : FindsFirst search) (output s t : String) :
    (writeContent search output s = some (output ++ content s) ∧
      appendContent output s = output ++ content s ∧
      Entity.IsEscaped contentEntities s.toList (content s).toList ∧
      content (s ++ t) = content s ++ content t) ∧
    (writeAttribute output s = output ++ attributeValue s ∧
      appendAttribute output s = output ++ attributeValue s ∧
      Entity.IsEscaped attributeEntities s.toList (attributeValue s).toList ∧
      attributeValue (s ++ t) = attributeValue s ++ attributeValue t) := by
  refine ⟨⟨writeContent_eq h output s, rfl, ?_, content_append s t⟩,
    ⟨writeAttribute_eq output s, rfl, ?_, attributeValue_append s t⟩⟩
  · rw [content, String.toList_ofList, escapeContent_eq]
    exact Entity.isEscaped_escape readable_content List.mem_cons_self _
  · rw [attributeValue, String.toList_ofList, escapeAttribute_eq]
    exact Entity.isEscaped_escape readable_attribute List.mem_cons_self _

/-- A text that looks escaped is escaped once more. -/
theorem write_isEscaped_entity :
    FindsFirst firstOf ∧ writeContent firstOf "x" "ℝ&amp;<" = some "xℝ&amp;amp;&lt;" ∧
      Entity.IsEscaped contentEntities "ℝ&amp;<".toList "ℝ&amp;amp;&lt;".toList := by
  obtain ⟨⟨hwrite, -, hescaped, -⟩, -⟩ := write_isEscaped findsFirst_firstOf "x" "ℝ&amp;<" ""
  have hcontent : content "ℝ&amp;<" = "ℝ&amp;amp;&lt;" := by decide
  rw [hcontent] at hwrite hescaped
  exact ⟨findsFirst_firstOf, hwrite, hescaped⟩

end FormulaMarkup.Markup
