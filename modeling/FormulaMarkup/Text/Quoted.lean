import FormulaMarkup.Text.Invisible

/-!
# Quoted text: names and values as messages show them
-/

namespace FormulaMarkup.Text

/-- A character between double quotes. Quotes, backslashes, line ends and tabs get a backslash, and
what cannot be seen is given by its code point in hexadecimal. -/
def quotedChar (c : Char) : List Char :=
  match c with
  | '\x00' => ['\\', '0']
  | '\t' => ['\\', 't']
  | '\n' => ['\\', 'n']
  | '\r' => ['\\', 'r']
  | '\x22' => ['\\', '\x22']
  | '\\' => ['\\', '\\']
  | c =>
    if isInvisible c then
      ['\\', 'u', '\x7b'] ++ Nat.toDigits 16 c.toNat ++ ['\x7d']
    else
      [c]

def quoted (s : String) : String :=
  String.ofList ('\x22' :: s.toList.flatMap quotedChar ++ ['\x22'])

end FormulaMarkup.Text
