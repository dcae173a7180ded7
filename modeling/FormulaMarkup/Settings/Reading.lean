import FormulaMarkup.Settings.Basic
import FormulaMarkup.Settings.Value

/-!
# Reading settings from values

Settings that are not given keep their defaults, and keys that are no settings mean nothing.
-/

namespace FormulaMarkup

/-- What a setting asks for. -/
inductive Expected where
  | boolean
  | string
  | choice
  | nothing
  deriving DecidableEq, Repr

def Expected.describe : Expected → String
  | boolean => "a boolean"
  | string => "a string"
  | choice => "string or map"
  | nothing => "unit"

/-- Why a value is no setting. -/
inductive SettingError where
  | unknownChoice (found : String) (choices : List String)
  | wrongType (found : Value) (expected : Expected)
  /-- a choice given as a table, but not one of a single key -/
  | notSingle

namespace SettingError

def listChoices : List String → String
  | [a, b] => Value.marked a ++ " or " ++ Value.marked b
  | choices => "one of " ++ ", ".intercalate (choices.map Value.marked)

def message : SettingError → String
  | unknownChoice found choices =>
    "unknown variant " ++ Value.marked found ++ ", expected " ++ listChoices choices
  | wrongType found expected =>
    "invalid type: " ++ found.describe ++ ", expected " ++ expected.describe
  | notSingle => "invalid value: map, expected map with a single key"

end SettingError

/-- How a data format writes that a choice has nothing to say besides its name. -/
abbrev NothingTest : Type := Value → Bool

/-- Formats that have null write null. -/
def NothingTest.null : NothingTest
  | .null => true
  | _ => false

/-- Formats that have no null write an empty sequence or table. -/
def NothingTest.empty : NothingTest
  | .sequence [] | .table [] => true
  | _ => false

namespace Value

def readBoolean : Value → Except SettingError Bool
  | boolean b => .ok b
  | value => .error (.wrongType value .boolean)

/-- A text, which null leaves unset. -/
def readText : Value → Except SettingError (Option String)
  | null => .ok none
  | string s => .ok (some s)
  | value => .error (.wrongType value .string)

def findChoice {α : Type} (choices : List (String × α)) (name : String) : Except SettingError α :=
  match choices.find? (·.1 = name) with
  | some choice => .ok choice.2
  | none => .error (.unknownChoice name (choices.map (·.1)))

/-- A choice, given by its name or by a table with its name as the only key and nothing in it. -/
def readChoice {α : Type} (isNothing : NothingTest) (choices : List (String × α)) :
    Value → Except SettingError α
  | string s => findChoice choices s
  | table [(name, payload)] => do
    let choice ← findChoice choices name
    if isNothing payload then .ok choice else .error (.wrongType payload .nothing)
  | table _ => .error .notSingle
  | value => .error (.wrongType value .choice)

end Value

namespace Settings

def prettyPrintChoices : List (String × PrettyPrint) :=
  [PrettyPrint.never, .always, .auto].map fun choice => (choice.name, choice)

def displayChoices : List (String × Display) :=
  [Display.inline, .block].map fun choice => (choice.name, choice)

def assign (isNothing : NothingTest) (settings : Settings) (key : String) (value : Value) :
    Except SettingError Settings :=
  match key with
  | "pretty-print" =>
    (value.readChoice isNothing prettyPrintChoices).map ({ settings with prettyPrint := · })
  | "display" => (value.readChoice isNothing displayChoices).map ({ settings with display := · })
  | "xml-namespace" => value.readBoolean.map ({ settings with xmlNamespace := · })
  | "display-style" => value.readBoolean.map ({ settings with displayStyle := · })
  | "math-color" => value.readText.map ({ settings with mathColor := · })
  | "math-background" => value.readText.map ({ settings with mathBackground := · })
  | "math-size" => value.readText.map ({ settings with mathSize := · })
  | "font-family" => value.readText.map ({ settings with fontFamily := · })
  | _ => .ok settings

/-- The settings with all the given ones, in turn. -/
def assignAll (isNothing : NothingTest) (settings : Settings) :
    List (String × Value) → Except SettingError Settings
  | [] => .ok settings
  | (key, value) :: entries => do
    let settings ← settings.assign isNothing key value
    assignAll isNothing settings entries

def ofEntries (isNothing : NothingTest) (entries : List (String × Value)) :
    Except SettingError Settings :=
  assignAll isNothing .default entries

end Settings

end FormulaMarkup
