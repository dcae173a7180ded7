import FormulaMarkup.Toml.Layout

/-!
# TOML: strings and keys
-/

namespace FormulaMarkup.Toml

/-! ## Escapes -/

def hexDigit? (c : Char) : Option Nat :=
  if c.isDigit then some (c.toNat - '0'.toNat)
  else if 'a' ≤ c && c ≤ 'f' then some (c.toNat - 'a'.toNat + 10)
  else if 'A' ≤ c && c ≤ 'F' then some (c.toNat - 'A'.toNat + 10)
  else none

/-- The number of exactly `n` hexadecimal digits, after `value`. -/
def hexNumber (value : Nat) : Nat → Reader Nat
  | 0, s => some (value, s)
  | _ + 1, [] => none
  | n + 1, c :: s =>
    match hexDigit? c with
    | some digit => hexNumber (16 * value + digit) n s
    | none => none

/-- The character of a code point that is given by `n` hexadecimal digits. -/
def codePoint (n : Nat) : Reader Char := fun s =>
  match hexNumber 0 n s with
  | some (value, t) => if value.isValidChar then some (Char.ofNat value, t) else none
  | none => none

def escape : Reader Char
  | 'b' :: s => some ('\x08', s)
  | 't' :: s => some ('\t', s)
  | 'n' :: s => some ('\n', s)
  | 'f' :: s => some ('\x0c', s)
  | 'r' :: s => some ('\r', s)
  | 'e' :: s => some ('\x1b', s)
  | '\x22' :: s => some ('\x22', s)
  | '\\' :: s => some ('\\', s)
  | 'x' :: s => codePoint 2 s
  | 'u' :: s => codePoint 4 s
  | 'U' :: s => codePoint 8 s
  | _ => none

/-! ## Strings on one line -/

/-- A string with escapes, up to its closing quote. -/
def basicBody : Nat → Reader (List Char)
  | 0, _ => none
  | _ + 1, [] => none
  | n + 1, c :: s =>
    if c = '\x22' then
      some ([], s)
    else if c = '\\' then
      match escape s with
      | some (d, t) => (basicBody n t).map fun (body, rest) => (d :: body, rest)
      | none => none
    else if isPlain c then
      (basicBody n s).map fun (body, rest) => (c :: body, rest)
    else
      none

/-- A string without escapes, up to its closing quote. -/
def literalBody (s : List Char) : Option (List Char × List Char) :=
  match s.dropWhile fun c => isPlain c && c ≠ '\'' with
  | '\'' :: t => some (s.takeWhile fun c => isPlain c && c ≠ '\'', t)
  | _ => none

/-! ## Strings on several lines -/

/-- Up to two quotes in front of the closing ones belong to the string. -/
def extraQuotes (quote : Char) : List Char → List Char × List Char
  | c :: d :: s =>
    if c = quote then
      if d = quote then ([c, d], s) else ([c], d :: s)
    else
      ([], c :: d :: s)
  | [c] => if c = quote then ([c], []) else ([], [c])
  | [] => ([], [])

def skipBreaks : List Char → List Char
  | ' ' :: s | '\t' :: s | '\n' :: s | '\r' :: '\n' :: s => skipBreaks s
  | s => s

/-- A string up to three quotes that close it. With escapes, a backslash at the end of a line joins
the line with what follows. -/
def longBody (quote : Char) (escapes : Bool) : Nat → Reader (List Char)
  | 0, _ => none
  | _ + 1, [] => none
  | n + 1, c :: s =>
    if c = quote then
      match s with
      | d :: e :: t =>
        if d = quote && e = quote then
          some (extraQuotes quote t)
        else
          (longBody quote escapes n s).map fun (body, rest) => (c :: body, rest)
      | _ => none
    else if escapes && c = '\\' then
      match afterLineEnd? (skipSpaces s) with
      | some t => longBody quote escapes n (skipBreaks t)
      | none =>
        match escape s with
        | some (d, t) => (longBody quote escapes n t).map fun (body, rest) => (d :: body, rest)
        | none => none
    else if isPlain c || c = '\n' || (c = '\r' && s.head? = some '\n') then
      (longBody quote escapes n s).map fun (body, rest) => (c :: body, rest)
    else
      none

/-- A line end right after the opening quotes does not count. -/
def skipFirstLineEnd (s : List Char) : List Char := (afterLineEnd? s).getD s

def string : Reader String := fun s =>
  let text (body : Option (List Char × List Char)) : Option (String × List Char) :=
    body.map fun (cs, rest) => (String.ofList cs, rest)
  match s with
  | '\x22' :: '\x22' :: '\x22' :: t =>
    text (longBody '\x22' true (t.length + 1) (skipFirstLineEnd t))
  | '\'' :: '\'' :: '\'' :: t => text (longBody '\'' false (t.length + 1) (skipFirstLineEnd t))
  | '\x22' :: t => text (basicBody (t.length + 1) t)
  | '\'' :: t => text (literalBody t)
  | _ => none

/-! ## Keys -/

def isBareKeyChar (c : Char) : Bool := c.isAlphanum || c = '_' || c = '-'

/-- A key that is one word or one string on one line. -/
def simpleKey (s : List Char) : Option (String × List Char) :=
  match s with
  | '\x22' :: t => (basicBody (t.length + 1) t).map fun (cs, rest) => (String.ofList cs, rest)
  | '\'' :: t => (literalBody t).map fun (cs, rest) => (String.ofList cs, rest)
  | s =>
    match s.takeWhile isBareKeyChar with
    | [] => none
    | c :: cs => some (String.ofList (c :: cs), s.dropWhile isBareKeyChar)

/-- Up to `n` simple keys with points between them. -/
def keyUpTo : Nat → Reader (List String)
  | 0, _ => none
  | n + 1, s =>
    match simpleKey s with
    | none => none
    | some (key, t) =>
      match skipSpaces t with
      | '.' :: u => (keyUpTo n (skipSpaces u)).map fun (keys, rest) => (key :: keys, rest)
      | _ => some ([key], t)

/-- A key, as the path it stands for. -/
def key (s : List Char) : Option (List String × List Char) := keyUpTo (s.length + 1) s

end FormulaMarkup.Toml
