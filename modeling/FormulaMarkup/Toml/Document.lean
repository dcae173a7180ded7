import FormulaMarkup.Toml.Moment
import FormulaMarkup.Toml.Number
import FormulaMarkup.Toml.Table

/-!
# TOML: documents
-/

namespace FormulaMarkup.Toml

/-- Arrays and tables may stand in one another up to this depth. -/
def maxNesting : Nat := 80

/-! ## Values -/

def isBareValueChar (c : Char) : Bool :=
  c.isAlphanum || c = '_' || c = '-' || c = '+' || c = '.' || c = ':'

def scalar (s : List Char) : Option (Value × List Char) :=
  match s with
  | '\x22' :: _ | '\'' :: _ => (string s).map fun (text, rest) => (.string text, rest)
  | s =>
    if startsDate s then
      (afterDateTime? s).map fun rest => (.moment, rest)
    else if startsTime s then
      (afterTime? s).map fun rest => (.moment, rest)
    else
      (bareValue? (s.takeWhile isBareValueChar)).map fun v => (v, s.dropWhile isBareValueChar)

mutual

/-- A value. Each step of the reading uses up fuel, and `room` more levels may open. -/
def valueWith (fuel room : Nat) (s : List Char) : Option (Value × List Char) :=
  match fuel, s with
  | 0, _ => none
  | fuel + 1, '[' :: t =>
    match room with
    | 0 => none
    | room + 1 => (itemsWith fuel room t).map fun (items, rest) => (.sequence items, rest)
  | fuel + 1, '\x7b' :: t =>
    match room with
    | 0 => none
    | room + 1 =>
      (fieldsWith fuel room [] t).map fun (entries, rest) => (.table (toFields entries), rest)
  | _ + 1, s => scalar s

/-- The items of an array up to its end. A comma may follow the last one. -/
def itemsWith (fuel room : Nat) (s : List Char) : Option (List Value × List Char) :=
  match fuel, skipLines s with
  | 0, _ => none
  | _ + 1, ']' :: t => some ([], t)
  | fuel + 1, t =>
    match valueWith fuel room t with
    | none => none
    | some (item, u) =>
      match skipLines u with
      | ',' :: rest => (itemsWith fuel room rest).map fun (items, rest) => (item :: items, rest)
      | ']' :: rest => some ([item], rest)
      | _ => none

/-- The fields of a table up to its end, added to `table`. A comma may follow the last one. Line ends
and comments may stand around each key, its equals sign and its value, but not within a key. -/
def fieldsWith (fuel room : Nat) (table : Entries) (s : List Char) :
    Option (Entries × List Char) :=
  match fuel, skipLines s with
  | 0, _ => none
  | _ + 1, '\x7d' :: t => some (table, t)
  | fuel + 1, t =>
    match key t with
    | none => none
    | some (path, u) =>
      match skipLines u with
      | '=' :: rest =>
        match valueWith fuel room (skipLines rest) with
        | none => none
        | some (v, rest) =>
          match insert v path table with
          | none => none
          | some table =>
            match skipLines rest with
            | ',' :: rest => fieldsWith fuel room table rest
            | '\x7d' :: rest => some (table, rest)
            | _ => none
      | _ => none

end

def value (s : List Char) : Option (Value × List Char) := valueWith (2 * s.length + 2) maxNesting s

/-! ## Lines -/

/-- The entries read so far, and the path of the last header. -/
structure State where
  entries : Entries
  path : List String

def header (state : State) (s : List Char) : Option (State × List Char) := do
  let (path, s) ← key (skipSpaces s)
  let s ← afterChar? ']' (skipSpaces s)
  let entries ← atHeader openTable path state.entries
  return (⟨entries, path⟩, s)

def arrayHeader (state : State) (s : List Char) : Option (State × List Char) := do
  let (path, s) ← key (skipSpaces s)
  let s ← afterChar? ']' (skipSpaces s)
  let s ← afterChar? ']' s
  let entries ← atHeader pushTable path state.entries
  return (⟨entries, path⟩, s)

def assignment (state : State) (s : List Char) : Option (State × List Char) := do
  let (path, s) ← key s
  let s ← afterChar? '=' (skipSpaces s)
  let (v, s) ← value (skipSpaces s)
  let entries ← within (insert v path) state.path state.entries
  return (⟨entries, state.path⟩, s)

/-- What stands on one line or goes on over several. -/
def statement (state : State) (s : List Char) : Option (State × List Char) :=
  match s with
  | '[' :: '[' :: t => arrayHeader state t
  | '[' :: t => header state t
  | s => assignment state s

/-- Up to `n` statements, to the end of the text. -/
def statements (state : State) : Nat → List Char → Option State
  | 0, _ => none
  | n + 1, s =>
    match skipLines s with
    | [] => some state
    | t =>
      match statement state t with
      | none => none
      | some (state, u) =>
        match afterLine? u with
        | none => none
        | some rest => statements state n rest

/-- The fields of a document. A byte order mark in front of it does not count. -/
def ofDocument? (text : String) : Option (List (String × Value)) :=
  let s :=
    match text.toList with
    | '\ufeff' :: s => s
    | s => s
  (statements ⟨[], []⟩ (s.length + 1) s).map fun state => toFields state.entries

end FormulaMarkup.Toml
