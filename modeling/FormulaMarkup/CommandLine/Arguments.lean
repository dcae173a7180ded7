import FormulaMarkup.Settings.Basic

/-!
# The arguments of the command

Arguments are taken from left to right. An option may be given once, and the first request for help
or for the version ends the reading.
-/

namespace FormulaMarkup.CommandLine

/-- What the arguments say about a conversion. -/
structure Options where
  block : Bool := false
  pretty : Bool := false
  config : Option String := none
  formula : Option String := none
  deriving DecidableEq, Repr

inductive Request where
  | help
  | version
  | convert (options : Options)
  deriving DecidableEq, Repr

/-! ## Single options -/

namespace Options

def setBlock (options : Options) : Option Options :=
  if options.block then none else some { options with block := true }

def setPretty (options : Options) : Option Options :=
  if options.pretty then none else some { options with pretty := true }

/-- The settings file needs a name. -/
def setConfig (options : Options) (file : String) : Option Options :=
  if options.config.isSome || file.isEmpty then none else some { options with config := some file }

def setFormula (options : Options) (formula : String) : Option Options :=
  if options.formula.isSome then none else some { options with formula := some formula }

/-- The settings of the conversion: what the options say goes before what the file says. -/
def override (options : Options) (settings : Settings) : Settings :=
  { settings with
    display := if options.block then .block else settings.display
    prettyPrint := if options.pretty then .always else settings.prettyPrint }

end Options

/-! ## Single arguments -/

/-- What follows from one argument. -/
inductive Step where
  | misuse
  | done (request : Request)
  | more (options : Options)
  /-- the next argument is the name of the settings file -/
  | file (options : Options)

namespace Step

def ofOptions? : Option Options → Step
  | some options => more options
  | none => misuse

end Step

/-- The parts of a long option before and after its first equals sign. -/
def splitValue (s : List Char) : List Char × Option (List Char) :=
  match s.dropWhile (· ≠ '=') with
  | [] => (s, none)
  | _ :: value => (s.takeWhile (· ≠ '='), some value)

/-- An option of two dashes and its full name. -/
def longOption (options : Options) (s : List Char) : Step :=
  match String.ofList (splitValue s).1, (splitValue s).2 with
  | "block", none => .ofOptions? options.setBlock
  | "pretty", none => .ofOptions? options.setPretty
  | "help", none => .done .help
  | "version", none => .done .version
  | "config", none => .file options
  | "config", some file => .ofOptions? (options.setConfig (String.ofList file))
  | _, _ => .misuse

/-- Options of one letter each, after one dash. What follows the letter of the settings file is its
name. -/
def shortOptions (options : Options) : List Char → Step
  | [] => .more options
  | 'b' :: s =>
    match options.setBlock with
    | some options => shortOptions options s
    | none => .misuse
  | 'p' :: s =>
    match options.setPretty with
    | some options => shortOptions options s
    | none => .misuse
  | 'h' :: _ => .done .help
  | 'V' :: _ => .done .version
  | 'c' :: [] => .file options
  | 'c' :: '=' :: file => .ofOptions? (options.setConfig (String.ofList file))
  | 'c' :: file => .ofOptions? (options.setConfig (String.ofList file))
  | _ :: _ => .misuse

/-- An argument that is no value of an option. A single dash is a formula. -/
def argument (options : Options) (s : String) : Step :=
  match s.toList with
  | '-' :: '-' :: name => longOption options name
  | '-' :: c :: letters => shortOptions options (c :: letters)
  | _ => .ofOptions? (options.setFormula s)

def isValue (s : String) : Bool :=
  match s.toList with
  | '-' :: _ :: _ => false
  | _ => true

/-! ## All arguments -/

/-- Arguments that are formulas, whatever they look like. -/
def formulas (options : Options) : List String → Option Options
  | [] => some options
  | s :: rest =>
    match options.setFormula s with
    | some options => formulas options rest
    | none => none

/-- The request that is made by arguments after those that gave the options. -/
def requestFrom (options : Options) : List String → Option Request
  | [] => some (.convert options)
  | s :: rest =>
    if s = "--" then
      (formulas options rest).map .convert
    else
      match argument options s with
      | .misuse => none
      | .done request => some request
      | .more options => requestFrom options rest
      | .file options =>
        match rest with
        | [] => none
        | file :: rest =>
          if isValue file then
            match options.setConfig file with
            | some options => requestFrom options rest
            | none => none
          else
            none

/-- The request that the arguments make, unless they are misused. -/
def request? (arguments : List String) : Option Request := requestFrom {} arguments

end FormulaMarkup.CommandLine
