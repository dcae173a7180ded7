/-!
# Escaping: texts that hold no markup of their own

In the content of an element `&`, `<` and `>` are written as entities, and in an attribute value,
which stands between double quotes, `&`, `"` and `<`. All other characters stay as they are.
-/

namespace FormulaMarkup.Markup

def contentChar : Char → List Char
  | '&' => ['&', 'a', 'm', 'p', ';']
  | '<' => ['&', 'l', 't', ';']
  | '>' => ['&', 'g', 't', ';']
  | c => [c]

def attributeChar : Char → List Char
  | '&' => ['&', 'a', 'm', 'p', ';']
  | '\x22' => ['&', 'q', 'u', 'o', 't', ';']
  | '<' => ['&', 'l', 't', ';']
  | c => [c]

def escapeContent (s : List Char) : List Char := s.flatMap contentChar

def escapeAttribute (s : List Char) : List Char := s.flatMap attributeChar

/-- Writes a text to the end of `output`, as the content of an element. -/
def appendContent (output s : String) : String :=
  output ++ String.ofList (escapeContent s.toList)

/-- Writes a text to the end of `output`, as an attribute value. -/
def appendAttribute (output s : String) : String :=
  output ++ String.ofList (escapeAttribute s.toList)

theorem escapeContent_append (s t : List Char) :
    escapeContent (s ++ t) = escapeContent s ++ escapeContent t :=
  List.flatMap_append

theorem escapeAttribute_append (s t : List Char) :
    escapeAttribute (s ++ t) = escapeAttribute s ++ escapeAttribute t :=
  List.flatMap_append

end FormulaMarkup.Markup
