import FormulaMarkup.Symbol.Table
import FormulaMarkup.Text.Blank

/-!
# What holds of every symbol of the table
-/

namespace FormulaMarkup

namespace Symbol

/-- The elements that go with a role. -/
def elements : Role → List Element
  | .identifier => [.mi, .mo]
  | .unary .accentOver => [.mover]
  | .unary .accentUnder => [.munder]
  | .unary .squareRoot => [.msqrt]
  | .unary .text => [.mtext]
  | .unary (.variant _) => [.mstyle]
  | .unary (.fenced _ _) => [.mrow]
  | .binary _ => [.mfrac, .mroot, .mover, .munder]
  | _ => [.mo]

/-- The texts that a role shows beside the output. -/
def delimiters : Role → List String
  | .unary (.fenced left right) => [left, right]
  | _ => []

/-- Only brackets may have no output. -/
def mayBeInvisible : Role → Bool
  | .openBracket | .closeBracket => true
  | _ => false

theorem mem_entries_of_lookup {spelling : String} {symbol : Symbol}
    (h : lookup spelling = some symbol) : (spelling, symbol) ∈ entries := by
  obtain ⟨entry, hfind, rfl⟩ := Option.map_eq_some_iff.1 h
  have hmem := List.mem_of_find?_eq_some hfind
  have hspelling := List.find?_some hfind
  rw [decide_eq_true_eq] at hspelling
  subst hspelling
  exact hmem

/-! ## Over all entries -/

theorem entries_element : ∀ entry ∈ entries, entry.2.element ∈ elements entry.2.role := by
  decide +kernel

theorem entries_output :
    ∀ entry ∈ entries, mayBeInvisible entry.2.role = false → entry.2.output ≠ "" := by
  decide +kernel

theorem entries_delimiters : ∀ entry ∈ entries, ∀ text ∈ delimiters entry.2.role, text ≠ "" := by
  decide +kernel

theorem entries_spelling : ∀ entry ∈ entries, entry.1 ≠ "" := by
  decide +kernel

theorem entries_length : ∀ entry ∈ entries, entry.1.length ≤ maxLength := by
  decide +kernel

theorem entries_comma : ∀ entry ∈ entries, entry.2.output = "," → entry.1 = "," := by
  decide +kernel

theorem entries_text : ∀ entry ∈ entries,
    entry.2.role = .unary .text ↔ entry.1 = "text" ∨ entry.1 = "mbox" := by
  decide +kernel

theorem entries_blank : ∀ entry ∈ entries, ∀ c ∈ entry.1.toList, Text.isBlank c = false := by
  have h : (entries.all fun entry => entry.1.toList.all (!Text.isBlank ·)) = true := by
    decide +kernel
  intro entry hentry c hc
  simpa using List.all_eq_true.1 (List.all_eq_true.1 h entry hentry) c hc

/-- Brackets that open stand at the beginning only. -/
theorem entries_opening :
    ∀ entry ∈ entries, ∀ c ∈ entry.1.toList.tail, c ∉ ['(', '[', '\x7b'] := by
  have h : (entries.all fun entry =>
      entry.1.toList.tail.all fun c => !(['(', '[', '\x7b'].contains c)) = true := by
    decide +kernel
  intro entry hentry c hc
  simpa using List.all_eq_true.1 (List.all_eq_true.1 h entry hentry) c hc

end Symbol

/-! ## Of one word -/

namespace Word

variable (word : Word)

theorem mem_entries : (word.spelling, word.symbol) ∈ Symbol.entries :=
  Symbol.mem_entries_of_lookup word.known

theorem element_mem : word.symbol.element ∈ Symbol.elements word.role :=
  Symbol.entries_element _ word.mem_entries

/-- Among symbols, only identifiers are leaves of an identifier. -/
theorem role_of_element_mi (h : word.symbol.element = .mi) : word.role = .identifier := by
  have hmem := word.element_mem
  rw [h] at hmem
  cases hrole : word.role with
  | identifier => rfl
  | unary kind =>
    rw [hrole] at hmem
    cases kind <;> simp [Symbol.elements] at hmem
  | _ =>
    rw [hrole] at hmem
    simp [Symbol.elements] at hmem

theorem output_ne_empty (h : Symbol.mayBeInvisible word.role = false) : word.symbol.output ≠ "" :=
  Symbol.entries_output _ word.mem_entries h

theorem delimiter_ne_empty {text : String} (h : text ∈ Symbol.delimiters word.role) : text ≠ "" :=
  Symbol.entries_delimiters _ word.mem_entries text h

theorem spelling_ne_empty : word.spelling ≠ "" :=
  Symbol.entries_spelling _ word.mem_entries

theorem length_spelling_le : word.spelling.length ≤ Symbol.maxLength :=
  Symbol.entries_length _ word.mem_entries

/-- Only a comma looks like one. -/
theorem spelling_of_output_comma (h : word.symbol.output = ",") : word.spelling = "," :=
  Symbol.entries_comma _ word.mem_entries h

theorem not_isBlank {c : Char} (h : c ∈ word.spelling.toList) : Text.isBlank c = false :=
  Symbol.entries_blank _ word.mem_entries c h

theorem not_mem_opening {c : Char} (h : c ∈ word.spelling.toList.tail) : c ∉ ['(', '[', '\x7b'] :=
  Symbol.entries_opening _ word.mem_entries c h

/-- The words that take verbatim text. -/
theorem role_eq_text_iff :
    word.role = .unary .text ↔ word.spelling = "text" ∨ word.spelling = "mbox" :=
  Symbol.entries_text _ word.mem_entries

/-- The spelling tells the whole word. -/
theorem eq_of_spelling {word other : Word} (h : word.spelling = other.spelling) : word = other := by
  obtain ⟨spelling, symbol, known⟩ := word
  obtain ⟨spelling', symbol', known'⟩ := other
  subst h
  rw [known] at known'
  cases known'
  rfl

def comma : Word := ⟨",", .operator ",", by decide⟩

theorem eq_comma_of_output {word : Word} (h : word.symbol.output = ",") : word = comma :=
  eq_of_spelling (word.spelling_of_output_comma h)

theorem eq_comma_of_spelling {word : Word} (h : word.spelling = ",") : word = comma :=
  eq_of_spelling h

end Word

end FormulaMarkup
