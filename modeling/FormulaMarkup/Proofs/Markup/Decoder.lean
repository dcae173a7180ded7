import FormulaMarkup.Markup.Render
import FormulaMarkup.Proofs.Markup.Unescape

/-!
# Reading markup

The reader goes from one angle bracket to the next. A start tag opens a node, and an end tag closes
the one opened last and gives it to the one around it. Of what stands between the tags only the text
of a node without children counts, so blanks between nodes do not.
-/

namespace FormulaMarkup

namespace Markup

/-! ## Tags -/

/-- The characters before the next `<`. -/
def text (s : List Char) : List Char := s.takeWhile (· ≠ '<')

/-- For each `<`, the characters up to the next one. -/
def tags : List Char → List (List Char)
  | [] => []
  | c :: s => if c = '<' then text s :: tags s else tags s

inductive Tag where
  | start (element : Element) (attributes : Attributes) (text : List Char)
  | stop

/-- Reads an attribute. Gives what follows the value, too. -/
def readAttribute (s : List Char) : Option ((Attribute × String) × List Char) :=
  let value := (s.dropWhile (· ≠ '=')).drop 2
  match Attribute.ofName? (String.ofList (s.takeWhile (· ≠ '='))),
    value.dropWhile (· ≠ '\x22') with
  | some a, _ :: rest =>
    some ((a, String.ofList (unescape (value.takeWhile (· ≠ '\x22')))), rest)
  | _, _ => none

theorem length_readAttribute_le {s rest : List Char} {a : Attribute × String}
    (h : readAttribute s = some (a, rest)) : rest.length ≤ s.length := by
  have hname := (List.dropWhile_suffix (· ≠ '=') (l := s)).length_le
  have hvalue := (List.dropWhile_suffix (· ≠ '\x22')
    (l := (s.dropWhile (· ≠ '=')).drop 2)).length_le
  unfold readAttribute at h
  dsimp only at h
  split at h
  · next hrest =>
    cases h
    rw [hrest, List.length_cons, List.length_drop] at hvalue
    omega
  · cases h

/-- Reads attributes up to the end of a start tag. What follows the tag is the text after it. -/
def readAttributes (attributes : Attributes) : List Char → Option (Attributes × List Char)
  | '>' :: s => some (attributes, s)
  | ' ' :: s =>
    match _h : readAttribute s with
    | some ((a, value), rest) => readAttributes (attributes.insert a value) rest
    | none => none
  | _ => none
termination_by s => s.length
decreasing_by exact Nat.lt_succ_of_le (length_readAttribute_le _h)

def readTag (s : List Char) : Option Tag :=
  match s with
  | '/' :: _ => some .stop
  | s => do
    let element ← Element.ofName? (String.ofList (s.takeWhile (·.isAlpha)))
    let (attributes, rest) ← readAttributes .empty (s.dropWhile (·.isAlpha))
    return .start element attributes rest

/-! ## Nodes -/

/-- A node whose end tag has not been read. -/
structure Frame where
  element : Element
  attributes : Attributes
  text : List Char
  children : List Node

namespace Frame

def node (frame : Frame) : Node :=
  match frame.children with
  | [] => ⟨frame.element, frame.attributes, [], some (String.ofList (unescape frame.text))⟩
  | children => ⟨frame.element, frame.attributes, children, none⟩

def append (frame : Frame) (nodes : List Node) : Frame :=
  { frame with children := frame.children ++ nodes }

/-- The surroundings of the root. -/
def document : Frame := ⟨.math, .empty, [], []⟩

end Frame

/-- Reads a tag, of which `frames` are open, the innermost first. -/
def step (frames : List Frame) (s : List Char) : Option (List Frame) :=
  match readTag s, frames with
  | some (.start element attributes text), frames =>
    some (⟨element, attributes, text, []⟩ :: frames)
  | some .stop, frame :: outer :: frames => some (outer.append [frame.node] :: frames)
  | _, _ => none

def run (frames : List Frame) (s : List Char) : Option (List Frame) :=
  (tags s).foldlM step frames

/-- The node that the markup tells, if it tells a single one. -/
def decode (s : String) : Option Node :=
  match run [.document] s.toList with
  | some [frame] =>
    match frame.children with
    | [node] => some node
    | _ => none
  | _ => none

end Markup

/-! ## Lists up to a character -/

section

variable {c : Char} {xs : List Char}

theorem forall_ne_of_notMem (h : c ∉ xs) : ∀ x ∈ xs, decide (x ≠ c) = true :=
  fun _ hx => decide_eq_true fun hxc => h (hxc ▸ hx)

theorem takeWhile_ne_append (h : c ∉ xs) (ys : List Char) :
    (xs ++ c :: ys).takeWhile (· ≠ c) = xs := by
  rw [List.takeWhile_append_of_pos (forall_ne_of_notMem h)]
  simp

theorem dropWhile_ne_append (h : c ∉ xs) (ys : List Char) :
    (xs ++ c :: ys).dropWhile (· ≠ c) = c :: ys := by
  rw [List.dropWhile_append_of_pos (forall_ne_of_notMem h)]
  simp

end

namespace Markup

variable {s : List Char}

/-! ## Tags -/

theorem text_append {a : List Char} (h : '<' ∉ a) (s : List Char) : text (a ++ s) = a ++ text s :=
  List.takeWhile_append_of_pos (forall_ne_of_notMem h)

theorem tags_append {a : List Char} (h : '<' ∉ a) (s : List Char) : tags (a ++ s) = tags s := by
  induction a with
  | nil => rfl
  | cons c a ih =>
    rw [List.mem_cons, not_or] at h
    rw [List.cons_append, tags, if_neg (Ne.symm h.1), ih h.2]

theorem tags_tag {a : List Char} (h : '<' ∉ a) (s : List Char) :
    tags ('<' :: a ++ s) = (a ++ text s) :: tags s := by
  rw [List.cons_append, tags, if_pos rfl, text_append h, tags_append h]

/-! ## Attributes -/

theorem name_chars (a : Attribute) : '<' ∉ a.name.toList ∧ '=' ∉ a.name.toList := by
  cases a <;> decide

theorem readAttribute_renderAttribute (a : Attribute × String) (s : List Char) :
    readAttribute
        (a.1.name.toList ++ '=' :: '\x22' :: (escapeAttribute a.2.toList ++ '\x22' :: s)) =
      some (a, s) := by
  have hvalue := (notMem_escapeAttribute a.2.toList).2
  rw [readAttribute, takeWhile_ne_append (name_chars a.1).2, dropWhile_ne_append (name_chars a.1).2,
    List.drop_succ_cons, List.drop_succ_cons, List.drop_zero, takeWhile_ne_append hvalue,
    dropWhile_ne_append hvalue, String.ofList_toList, Attribute.ofName?_name,
    unescape_escapeAttribute, String.ofList_toList]

theorem readAttributes_renderAttribute (s : Attributes) (a : Attribute × String)
    (rest : List Char) :
    readAttributes s (renderAttribute a ++ rest) = readAttributes (s.insert a.1 a.2) rest := by
  have hread := readAttribute_renderAttribute a rest
  simp only [renderAttribute, List.cons_append, List.append_assoc, List.nil_append]
  rw [readAttributes]
  split
  · next heq =>
    rw [hread] at heq
    cases heq
    rfl
  · next heq =>
    rw [hread] at heq
    cases heq

theorem readAttributes_flatMap (s : Attributes) (l : List (Attribute × String))
    (rest : List Char) :
    readAttributes s (l.flatMap renderAttribute ++ rest) =
      readAttributes (l.foldl (fun s a => s.insert a.1 a.2) s) rest := by
  induction l generalizing s with
  | nil => rfl
  | cons a l ih =>
    rw [List.flatMap_cons, List.append_assoc, readAttributes_renderAttribute, ih, List.foldl_cons]

end Markup

namespace Attributes

theorem get?_foldl_insert (s t : Attributes) (l : List Attribute) (a : Attribute) :
    ((l.filterMap fun a => (s.get? a).map (a, ·)).foldl (fun t a => t.insert a.1 a.2) t).get? a =
      if a ∈ l ∧ s.get? a ≠ none then s.get? a else t.get? a := by
  induction l generalizing t with
  | nil => simp
  | cons b l ih =>
    rw [List.filterMap_cons]
    cases hb : s.get? b with
    | none =>
      rw [Option.map_none, ih]
      by_cases hab : a = b
      · subst hab
        simp [hb]
      · simp [hab]
    | some value =>
      rw [Option.map_some]
      rw [List.foldl_cons, ih, get?_insert]
      by_cases hab : a = b
      · subst hab
        simp [hb]
      · simp [hab]

/-- What is listed determines the attributes. -/
theorem foldl_insert_toList (s : Attributes) :
    s.toList.foldl (fun t a => t.insert a.1 a.2) .empty = s := by
  refine ext_get? fun a => ?_
  rw [toList, get?_foldl_insert]
  cases ha : s.get? a with
  | none => cases a <;> rfl
  | some value => simp [Attribute.mem_all]

end Attributes

namespace Markup

/-! ## Whole tags -/

theorem name_isAlpha (element : Element) : ∀ c ∈ element.name.toList, c.isAlpha = true := by
  rw [← List.all_eq_true]
  cases element <;> decide

theorem lt_notMem_name (element : Element) : '<' ∉ element.name.toList ∧
    element.name.toList.head? ≠ some '/' := by
  cases element <;> decide

theorem lt_notMem_renderAttribute (a : Attribute × String) : '<' ∉ renderAttribute a := by
  have hvalue := (notMem_escapeAttribute a.2.toList).1
  simp [renderAttribute, (name_chars a.1).1, hvalue]

theorem lt_notMem_startTag (attributes : Attributes) :
    '<' ∉ attributes.toList.flatMap renderAttribute ++ ['>'] := by
  intro hmem
  rcases List.mem_append.1 hmem with hmem | hmem
  · obtain ⟨a, -, ha⟩ := List.mem_flatMap.1 hmem
    exact lt_notMem_renderAttribute a ha
  · simp at hmem

/-- The name of an element ends where its attributes or its end tag begin. -/
theorem head?_flatMap_renderAttribute (l : List (Attribute × String)) (s : List Char) :
    ∃ c rest, l.flatMap renderAttribute ++ '>' :: s = c :: rest ∧ c.isAlpha = false := by
  cases l with
  | nil => exact ⟨'>', s, rfl, by decide⟩
  | cons a l => exact ⟨' ', _, rfl, by decide⟩

theorem readTag_startTag (element : Element) (attributes : Attributes) (s : List Char) :
    readTag (element.name.toList ++ attributes.toList.flatMap renderAttribute ++ ['>'] ++ s) =
      some (.start element attributes s) := by
  obtain ⟨c, rest, hrest, hc⟩ := head?_flatMap_renderAttribute attributes.toList s
  have hread := readAttributes_flatMap .empty attributes.toList ('>' :: s)
  rw [Attributes.foldl_insert_toList, readAttributes] at hread
  simp only [List.append_assoc, List.cons_append, List.nil_append]
  rw [hrest] at hread ⊢
  rw [readTag]
  · rw [List.takeWhile_append_of_pos (name_isAlpha element),
      List.dropWhile_append_of_pos (name_isAlpha element)]
    simp [hc, hread, Element.ofName?_name]
  · cases element <;> simp [Element.name]

/-- What a start tag and an end tag say between the angle bracket and the text after them. -/
def startBody (element : Element) (attributes : Attributes) : List Char :=
  element.name.toList ++ attributes.toList.flatMap renderAttribute ++ ['>']

def endBody (element : Element) : List Char := '/' :: element.name.toList ++ ['>']

theorem lt_notMem_endBody (element : Element) : '<' ∉ endBody element := by
  simp [endBody, (lt_notMem_name element).1]

theorem tags_startTag (element : Element) (attributes : Attributes) (s : List Char) :
    tags (startTag element attributes ++ s) =
      (startBody element attributes ++ text s) :: tags s := by
  have hlt : '<' ∉ startBody element attributes := by
    rw [startBody, List.append_assoc, List.mem_append, not_or]
    exact ⟨(lt_notMem_name element).1, lt_notMem_startTag attributes⟩
  exact tags_tag hlt s

theorem tags_endTag (element : Element) (s : List Char) :
    tags (endTag element ++ s) = (endBody element ++ text s) :: tags s :=
  tags_tag (lt_notMem_endBody element) s

theorem run_startTag (frames : List Frame) (element : Element) (attributes : Attributes)
    (s : List Char) :
    run frames (startTag element attributes ++ s) =
      run (⟨element, attributes, text s, []⟩ :: frames) s := by
  rw [run, tags_startTag, List.foldlM_cons]
  unfold step
  rw [startBody, readTag_startTag]
  rfl

theorem run_endTag (frame outer : Frame) (frames : List Frame) (element : Element)
    (s : List Char) :
    run (frame :: outer :: frames) (endTag element ++ s) =
      run (outer.append [frame.node] :: frames) s := by
  rw [run, tags_endTag]
  rfl

theorem run_append {a : List Char} (h : '<' ∉ a) (frames : List Frame) (s : List Char) :
    run frames (a ++ s) = run frames s := by
  rw [run, tags_append h]
  rfl

theorem lt_notMem_lineStart (layout : Layout) : '<' ∉ layout.lineStart := by
  cases layout <;> simp [Layout.lineStart, Layout.indent]

theorem text_endTag (element : Element) (s : List Char) : text (endTag element ++ s) = [] := rfl

end Markup

end FormulaMarkup
