import FormulaMarkup.Symbol.Basic

/-!
# The table of symbols
-/

namespace FormulaMarkup.Symbol

/-! ## The entries, by subject -/

def greekLetters : List (String × Symbol) := [
  ("alpha", .identifier "α"), ("beta", .identifier "β"), ("gamma", .identifier "γ"),
  ("Gamma", .identifier "Γ"), ("delta", .identifier "δ"), ("Delta", .identifier "Δ"),
  ("epsilon", .identifier "ε"), ("varepsilon", .identifier "ɛ"), ("zeta", .identifier "ζ"),
  ("eta", .identifier "η"), ("theta", .identifier "θ"), ("Theta", .identifier "Θ"),
  ("vartheta", .identifier "ϑ"), ("iota", .identifier "ι"), ("kappa", .identifier "κ"),
  ("lambda", .identifier "λ"), ("Lambda", .identifier "Λ"), ("mu", .identifier "μ"),
  ("nu", .identifier "ν"), ("xi", .identifier "ξ"), ("Xi", .identifier "Ξ"),
  ("pi", .identifier "π"), ("Pi", .identifier "Π"), ("rho", .identifier "ρ"),
  ("sigma", .identifier "σ"), ("Sigma", .identifier "Σ"), ("tau", .identifier "τ"),
  ("upsilon", .identifier "υ"), ("phi", .identifier "ϕ"), ("Phi", .identifier "Φ"),
  ("varphi", .identifier "φ"), ("chi", .identifier "χ"), ("psi", .identifier "ψ"),
  ("Psi", .identifier "Ψ"), ("omega", .identifier "ω"), ("Omega", .identifier "Ω")]

def operations : List (String × Symbol) := [
  ("+", .operator "+"), ("-", .operator "-"), ("*", .operator "⋅"), ("**", .operator "∗"),
  ("***", .operator "⋆"), ("//", .operator "/"), ("\\\\", .operator "\\"),
  ("setminus", .operator "\\"), ("xx", .operator "×"), ("|><", .operator "⋉"),
  ("><|", .operator "⋊"), ("|><|", .operator "⋈"), ("-:", .operator "÷"),
  ("divide", .operator "÷"), ("@", .operator "∘"), ("o+", .operator "⊕"), ("ox", .operator "⊗"),
  ("o.", .operator "⊙"), ("^^", .operator "∧"), ("vv", .operator "∨"), ("nn", .operator "∩"),
  ("uu", .operator "∪"), ("mod", .operator "mod"), ("/", .operator "/"), ("_", .operator "_"),
  ("^", .operator "^"), (",", .operator ","), (";", .operator ";"), (".", .constant "."),
  ("!", .constant "!"), ("'", .constant "′")]

def largeOperators : List (String × Symbol) := [
  ("sum", .largeOperator "∑"), ("prod", .largeOperator "∏"), ("^^^", .largeOperator "⋀"),
  ("vvv", .largeOperator "⋁"), ("nnn", .largeOperator "⋂"), ("uuu", .largeOperator "⋃"),
  ("bigwedge", .largeOperator "⋀"), ("bigvee", .largeOperator "⋁"),
  ("bigcap", .largeOperator "⋂"), ("bigcup", .largeOperator "⋃"), ("lim", .largeOperator "lim"),
  ("Lim", .largeOperator "Lim"), ("min", .largeOperator "min"), ("max", .largeOperator "max"),
  ("inf", .largeOperator "inf"), ("int", .operator "∫"), ("oint", .operator "∮")]

def relations : List (String × Symbol) := [
  ("=", .operator "="), ("!=", .operator "≠"), (":=", .operator ":="), ("<", .operator "<"),
  ("lt", .operator "<"), (">", .operator ">"), ("gt", .operator ">"), ("<=", .operator "≤"),
  (">=", .operator "≥"), ("-<", .operator "≺"), (">-", .operator "≻"), ("-<=", .operator "⪯"),
  (">-=", .operator "⪰"), ("in", .operator "∈"), ("!in", .operator "∉"), ("sub", .operator "⊂"),
  ("sup", .operator "⊃"), ("sube", .operator "⊆"), ("supe", .operator "⊇"),
  ("-=", .operator "≡"), ("~=", .operator "≅"), ("~~", .operator "≈"), ("~", .operator "∼"),
  ("prop", .operator "∝")]

def logic : List (String × Symbol) := [
  ("and", .wordOperator "and"), ("or", .wordOperator "or"), ("if", .wordOperator "if"),
  ("not", .operator "¬"), ("=>", .operator "⇒"), ("<=>", .operator "⇔"), ("iff", .operator "⇔"),
  ("AA", .operator "∀"), ("EE", .operator "∃"), ("_|_", .constant "⊥"), ("TT", .constant "⊤"),
  ("|--", .operator "⊢"), ("|==", .operator "⊨")]

def miscellaneous : List (String × Symbol) := [
  ("del", .constant "∂"), ("grad", .constant "∇"), ("+-", .operator "±"), ("-+", .operator "∓"),
  ("O/", .constant "∅"), ("oo", .constant "∞"), ("aleph", .constant "ℵ"),
  ("...", .constant "..."), ("cdots", .constant "⋯"), ("vdots", .constant "⋮"),
  ("ddots", .constant "⋱"), ("diamond", .constant "⋄"), ("square", .constant "□"),
  ("angle", .constant "∠"), ("/_", .constant "∠"), ("/_\\", .constant "△"),
  ("triangle", .constant "△"), (":.", .constant "∴"), (":'", .constant "∵"),
  ("quad", .constant "\u00a0\u00a0"), ("qquad", .constant "\u00a0\u00a0\u00a0\u00a0"),
  ("CC", .constant "ℂ"), ("NN", .constant "ℕ"), ("QQ", .constant "ℚ"), ("RR", .constant "ℝ"),
  ("ZZ", .constant "ℤ")]

def arrows : List (String × Symbol) := [
  ("uarr", .operator "↑"), ("darr", .operator "↓"), ("rarr", .operator "→"),
  ("->", .operator "→"), (">->", .operator "↣"), ("->>", .operator "↠"), (">->>", .operator "⤖"),
  ("|->", .operator "↦"), ("larr", .operator "←"), ("harr", .operator "↔"),
  ("rArr", .operator "⇒"), ("lArr", .operator "⇐"), ("hArr", .operator "⇔")]

def brackets : List (String × Symbol) := [
  ("(", .openBracket "("), (")", .closeBracket ")"), ("[", .openBracket "["),
  ("]", .closeBracket "]"), ("\x7b", .openBracket "\x7b"), ("\x7d", .closeBracket "\x7d"),
  ("(:", .openBracket "⟨"), (":)", .closeBracket "⟩"), ("<<", .openBracket "⟨"),
  (">>", .closeBracket "⟩"), ("\x7b:", .openBracket ""), (":\x7d", .closeBracket ""),
  ("|__", .openBracket "⌊"), ("__|", .closeBracket "⌋"), ("|~", .openBracket "⌈"),
  ("~|", .closeBracket "⌉"), ("|", .bar "|")]

def namedFunctions : List (String × Symbol) := [
  ("sin", .function "sin"), ("cos", .function "cos"), ("tan", .function "tan"),
  ("sec", .function "sec"), ("csc", .function "csc"), ("cot", .function "cot"),
  ("arcsin", .function "arcsin"), ("arccos", .function "arccos"), ("arctan", .function "arctan"),
  ("sinh", .function "sinh"), ("cosh", .function "cosh"), ("tanh", .function "tanh"),
  ("sech", .function "sech"), ("csch", .function "csch"), ("coth", .function "coth"),
  ("exp", .function "exp"), ("log", .function "log"), ("ln", .function "ln"),
  ("det", .function "det"), ("dim", .function "dim"), ("gcd", .function "gcd"),
  ("lcm", .function "lcm"), ("lub", .function "lub"), ("glb", .function "glb")]

def accents : List (String × Symbol) := [
  ("hat", .accentOver "^"), ("bar", .accentOver "¯"), ("overline", .accentOver "¯"),
  ("vec", .accentOver "→"), ("tilde", .accentOver "~"), ("dot", .accentOver "."),
  ("ddot", .accentOver ".."), ("obrace", .accentOver "⏞"), ("overbrace", .accentOver "⏞"),
  ("ul", .accentUnder "\u0332"), ("underline", .accentUnder "\u0332"),
  ("ubrace", .accentUnder "⏟"), ("underbrace", .accentUnder "⏟")]

def unaryFunctions : List (String × Symbol) := [
  ("sqrt", .squareRoot "sqrt"), ("text", .text "text"), ("mbox", .text "mbox"),
  ("abs", .fenced "abs" "|" "|"), ("norm", .fenced "norm" "∥" "∥"),
  ("floor", .fenced "floor" "⌊" "⌋"), ("ceil", .fenced "ceil" "⌈" "⌉")]

def fonts : List (String × Symbol) := [
  ("bb", .font "bb" .bold), ("bbb", .font "bbb" .doubleStruck), ("cc", .font "cc" .script),
  ("tt", .font "tt" .monospace), ("fr", .font "fr" .fraktur), ("sf", .font "sf" .sansSerif)]

def binaryFunctions : List (String × Symbol) := [
  ("frac", .binary .mfrac "frac" .preserve), ("root", .binary .mroot "root" .swap),
  ("stackrel", .binary .mover "stackrel" .swap), ("overset", .binary .mover "overset" .swap),
  ("underset", .binary .munder "underset" .swap)]

/-- All symbols under their spellings. No spelling occurs twice. -/
def entries : List (String × Symbol) :=
  greekLetters ++ operations ++ largeOperators ++ relations ++ logic ++ miscellaneous ++ arrows ++
    brackets ++ namedFunctions ++ accents ++ unaryFunctions ++ fonts ++ binaryFunctions

def lookup (spelling : String) : Option Symbol :=
  (entries.find? (·.1 = spelling)).map (·.2)

/-- No spelling has more characters. -/
def maxLength : Nat := 10

end FormulaMarkup.Symbol

namespace FormulaMarkup

/-- A spelling of the table, with its symbol. -/
structure Word where
  spelling : String
  symbol : Symbol
  known : Symbol.lookup spelling = some symbol
  deriving DecidableEq

namespace Word

/-- The spelling as a word, if the table has it. -/
def ofSpelling? (spelling : String) : Option Word :=
  match h : Symbol.lookup spelling with
  | none => none
  | some symbol => some ⟨spelling, symbol, h⟩

/-- The longest word among the beginnings of the text that have up to `n` characters. -/
def longestUpTo : Nat → List Char → Option Word
  | 0, _ => none
  | n + 1, s =>
    match ofSpelling? (String.ofList (s.take (n + 1))) with
    | some word => some word
    | none => longestUpTo n s

def longest? (s : List Char) : Option Word := longestUpTo Symbol.maxLength s

def role (word : Word) : Role := word.symbol.role

end Word

end FormulaMarkup
