import FormulaMarkup.Settings.Value

/-!
# TOML: tables while a document is read

Which ways to extend a table are open depends on how the table came to be.
-/

namespace FormulaMarkup.Toml

/-- How a table came to be. -/
inductive Origin where
  /-- a header names it -/
  | header
  /-- a header names a table within it -/
  | implied
  /-- a key with points leads through it -/
  | dotted
  deriving DecidableEq, Repr

inductive Entry where
  | value (v : Value)
  | table (origin : Origin) (entries : List (String × Entry))
  /-- an array of tables, of which only the last one can still be extended -/
  | tables (earlier : List (List (String × Entry))) (last : List (String × Entry))

abbrev Entries : Type := List (String × Entry)

/-- Gives a key a new entry that depends on the entry it has, or refuses to. -/
def alter (f : Option Entry → Option Entry) (key : String) : Entries → Option Entries
  | [] => (f none).map fun entry => [(key, entry)]
  | (k, entry) :: entries =>
    if k = key then
      (f (some entry)).map fun entry => (k, entry) :: entries
    else
      (alter f key entries).map fun entries => (k, entry) :: entries

/-- Sets a value under a path of keys. The path may lead through tables that headers imply or other
paths lead through, but not through one that a header names; and the last key may not go right into
an array of tables. -/
def insert (v : Value) : List String → Entries → Option Entries
  | [], _ => none
  | [key], entries =>
    alter
      (fun
        | none => some (.value v)
        | some _ => none)
      key entries
  | key :: next :: path, entries =>
    alter
      (fun
        | none => (insert v (next :: path) []).map (.table .dotted)
        | some (.table origin inner) =>
          if origin = .header then none
          else (insert v (next :: path) inner).map (.table origin)
        | some (.tables earlier last) =>
          if path.isEmpty then none
          else (insert v (next :: path) last).map (.tables earlier)
        | some (.value _) => none)
      key entries

/-- Changes the entries of the table that a header has named. -/
def within (f : Entries → Option Entries) : List String → Entries → Option Entries
  | [], entries => f entries
  | key :: path, entries =>
    alter
      (fun
        | some (.table origin inner) => (within f path inner).map (.table origin)
        | some (.tables earlier last) => (within f path last).map (.tables earlier)
        | _ => none)
      key entries

/-- Changes the last entry on the path of a header. Tables on the way that do not exist yet are
implied. -/
def atHeader (f : Option Entry → Option Entry) : List String → Entries → Option Entries
  | [], _ => none
  | [key], entries => alter f key entries
  | key :: next :: path, entries =>
    alter
      (fun
        | none => (atHeader f (next :: path) []).map (.table .implied)
        | some (.table origin inner) => (atHeader f (next :: path) inner).map (.table origin)
        | some (.tables earlier last) => (atHeader f (next :: path) last).map (.tables earlier)
        | some (.value _) => none)
      key entries

/-- A header names a table that is new or has only been implied. -/
def openTable : Option Entry → Option Entry
  | none => some (.table .header [])
  | some (.table .implied inner) => some (.table .header inner)
  | some _ => none

/-- A header of an array adds a table to it. -/
def pushTable : Option Entry → Option Entry
  | none => some (.tables [] [])
  | some (.tables earlier last) => some (.tables (earlier ++ [last]) [])
  | some _ => none

mutual

/-- The value of an entry, once the document has been read. -/
def Entry.toValue : Entry → Value
  | .value v => v
  | .table _ entries => .table (toFields entries)
  | .tables earlier last => .sequence (toTables earlier ++ [.table (toFields last)])

def toFields : List (String × Entry) → List (String × Value)
  | [] => []
  | (key, entry) :: entries => (key, entry.toValue) :: toFields entries

def toTables : List (List (String × Entry)) → List Value
  | [] => []
  | entries :: tables => .table (toFields entries) :: toTables tables

end

end FormulaMarkup.Toml
