import FormulaMarkup.CommandLine.Arguments
import FormulaMarkup.Converter
import FormulaMarkup.Settings.File

/-!
# What the command does
-/

namespace FormulaMarkup.CommandLine

inductive Outcome where
  | printed (text : String)
  | failed (message : String)
  /-- the arguments make no request -/
  | misused
  deriving DecidableEq, Repr

namespace Outcome

def code : Outcome → Nat
  | printed _ => 0
  | failed _ => 1
  | misused => 2

end Outcome

/-- The ways to read what the arguments do not say. -/
structure Sources (m : Type → Type) where
  file : String → m (Except ReadError ByteArray)
  input : m (Except ReadError ByteArray)

def helpLines : List String := [
  "CLI for converting ASCIIMath formulas to MathML",
  "",
  "Usage: asciimath [OPTIONS] [FORMULA]",
  "",
  "Arguments:",
  "  [FORMULA]  The formula to compile. Read from stdin if omitted",
  "",
  "Options:",
  "  -b, --block          Render the formula on its own line (display=\"block\")",
  "  -p, --pretty         Indent the MathML output",
  "  -c, --config <FILE>  Load converter settings from a TOML file",
  "  -h, --help           Print help",
  "  -V, --version        Print version"]

def helpText : String := String.join (helpLines.map (· ++ "\n"))

def versionText : String := "asciimath-cli 0.1.0\n"

def usageText : String := "Usage: asciimath [OPTIONS] [FORMULA]"

def failure (message : String) : Outcome := .failed ("asciimath: " ++ message)

variable {m : Type → Type} [Monad m]

def settingsOf (sources : Sources m) (options : Options) : m (Except LoadError Settings) :=
  match options.config with
  | none => pure (.ok (options.override .default))
  | some file => do
    let bytes ← sources.file file
    return (Settings.ofFile bytes).map options.override

/-- The formula of a conversion, which is the input if no argument gives it. -/
def formulaOf (sources : Sources m) (options : Options) : m (Except ReadError String) :=
  match options.formula with
  | some formula => pure (.ok formula)
  | none => do
    let bytes ← sources.input
    return bytes.bind decodeText

/-- Converts a formula. The settings are read before the formula. -/
def runConversion (sources : Sources m) (options : Options) : m Outcome := do
  match ← settingsOf sources options with
  | .error e => return failure e.message
  | .ok settings =>
    match ← formulaOf sources options with
    | .error e => return failure ("cannot read stdin: " ++ e.message)
    | .ok formula => return .printed (convert settings formula ++ "\n")

def run (sources : Sources m) (arguments : List String) : m Outcome :=
  match request? arguments with
  | none => pure .misused
  | some .help => pure (.printed helpText)
  | some .version => pure (.printed versionText)
  | some (.convert options) => runConversion sources options

end FormulaMarkup.CommandLine
