import FormulaMarkup.Settings.Reading
import FormulaMarkup.Toml.Document

/-!
# Settings from a file
-/

namespace FormulaMarkup

/-- Why there is no text to be had. -/
inductive ReadError where
  | missing
  | denied
  | directory
  /-- the bytes are no UTF-8 -/
  | notText
  deriving DecidableEq, Repr

def ReadError.message : ReadError → String
  | missing => "No such file or directory (os error 2)"
  | denied => "Permission denied (os error 13)"
  | directory => "Is a directory (os error 21)"
  | notText => "stream did not contain valid UTF-8"

/-- The text that bytes are the UTF-8 form of. -/
def decodeText (bytes : ByteArray) : Except ReadError String :=
  match String.fromUTF8? bytes with
  | some text => .ok text
  | none => .error .notText

/-- Why a file gives no settings. -/
inductive LoadError where
  | unreadable (cause : ReadError)
  /-- it is no TOML document, or holds a setting that is none -/
  | invalid
  deriving DecidableEq, Repr

def LoadError.message : LoadError → String
  | unreadable cause => "cannot read settings: " ++ cause.message
  | invalid => "invalid settings"

namespace Settings

def ofDocument? (text : String) : Option Settings :=
  match Toml.ofDocument? text with
  | some entries => (ofEntries .empty entries).toOption
  | none => none

/-- The settings of a file with these bytes, if it could be read. -/
def ofFile (bytes : Except ReadError ByteArray) : Except LoadError Settings :=
  match bytes.bind decodeText with
  | .error cause => .error (.unreadable cause)
  | .ok text =>
    match ofDocument? text with
    | some settings => .ok settings
    | none => .error .invalid

end Settings

end FormulaMarkup
