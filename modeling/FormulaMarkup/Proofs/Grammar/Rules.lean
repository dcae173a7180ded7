import FormulaMarkup.Formula.Parse

/-!
# The rules of the grammar

A derivation tells how a formula is read: what each of its parts begins with, and what is left after
it. The rules give no order of trial. Each has all its conditions, so a part has one derivation.
-/

namespace FormulaMarkup.Formula

/-- The word that closes a group of the given kind, if it is next. -/
inductive ReadsClosing (role : Role) :
    List Lexeme → Option (WordOf role) → List Lexeme → Prop where
  | closed (word : WordOf role) (left : List Lexeme) :
    ReadsClosing role (.symbol word.1 :: left) (some word) left
  | unclosed {left : List Lexeme} (next : ∀ y ∈ left.head?, y.role? ≠ some role) :
    ReadsClosing role left none left

/-- Whether a body ends here: at the end of the input or, in a group, before what closes it. -/
def bodyEnds (inBar inGroup : Bool) : List Lexeme → Bool
  | [] => true
  | x :: _ => inGroup && closes inBar x

mutual

/-- `s` begins with the operand, if `room` more levels may open, and `left` follows it. -/
inductive ReadsOperand :
    (room : Nat) → (inBar : Bool) → (s : List Lexeme) → Operand → (left : List Lexeme) → Prop where
  | number {room inBar s} (n : Numeral) : ReadsOperand room inBar (.number n :: s) (.number n) s
  | text {room inBar s} (body : String) : ReadsOperand room inBar (.text body :: s) (.text body) s
  | character {room inBar s} (c : Char) :
    ReadsOperand room inBar (.character c :: s) (.character c) s
  | leaf {room inBar s} (word : Word) (role : word.role.isLeaf = true) :
    ReadsOperand room inBar (.symbol word :: s) (.leaf word role) s
  | keyword {room inBar s} (word : Word) (role : word.role = .wordOperator) :
    ReadsOperand room inBar (.symbol word :: s) (.keyword word role) s
  | strayClosing {room inBar s} (word : Word) (role : word.role = .closeBracket) :
    ReadsOperand room inBar (.symbol word :: s) (.strayClosing word role) s
  | beyondLimit {inBar s} (word : Word) (role : word.role.nests = true) :
    ReadsOperand 0 inBar (.symbol word :: s) (.beyondLimit word role) s
  | group {room inBar s l left body closing} (word : Word) (role : word.role = .openBracket)
    (content : ReadsBody room false true s body l)
    (close : ReadsClosing .closeBracket l closing left) :
    ReadsOperand (room + 1) inBar (.symbol word :: s) (.group word role body closing) left
  | loneBar {room inBar s} (word : Word) (role : word.role = .leftRight)
    (alone : hasClosingBar 0 s = false) :
    ReadsOperand (room + 1) inBar (.symbol word :: s) (.loneBar word role) s
  | bars {room inBar s l left body closing} (word : Word) (role : word.role = .leftRight)
    (paired : hasClosingBar 0 s = true) (content : ReadsBody room true true s body l)
    (close : ReadsClosing .leftRight l closing left) :
    ReadsOperand (room + 1) inBar (.symbol word :: s) (.bars word role body closing) left
  | function {room inBar s l left scripts argument} (word : Word) (role : word.role = .function)
    (first : ReadsScripts room inBar .empty s scripts l) (more : atOperandEnd inBar l = false)
    (second : ReadsOperand room inBar l argument left) :
    ReadsOperand (room + 1) inBar (.symbol word :: s) (.function word role scripts argument) left
  | functionAlone {room inBar s left scripts} (word : Word) (role : word.role = .function)
    (first : ReadsScripts room inBar .empty s scripts left)
    (ends : atOperandEnd inBar left = true) :
    ReadsOperand (room + 1) inBar (.symbol word :: s) (.functionAlone word role scripts) left
  | noArgument {room inBar s} (word : Word) (role : word.role.isCall = true)
    (ends : atOperandEnd inBar s = true) :
    ReadsOperand (room + 1) inBar (.symbol word :: s) (.noArgument word role) s
  | verbatim {room inBar s} (word : Word) (role : word.role = .unary .text) (body : String) :
    ReadsOperand (room + 1) inBar (.symbol word :: .text body :: s) (.verbatim word role body) s
  | unary {room inBar s left argument} (word : Word) (kind : UnaryKind)
    (role : word.role = .unary kind) (more : atOperandEnd inBar s = false)
    (markup : kind = .text → ∀ body, s.head? ≠ some (.text body))
    (first : ReadsOperand room inBar s argument left) :
    ReadsOperand (room + 1) inBar (.symbol word :: s) (.unary word kind role argument) left
  | noSecond {room inBar s left argument} (word : Word) (order : ArgOrder)
    (role : word.role = .binary order) (more : atOperandEnd inBar s = false)
    (first : ReadsOperand room inBar s argument left) (ends : atOperandEnd inBar left = true) :
    ReadsOperand (room + 1) inBar (.symbol word :: s) (.noSecond word order role argument) left
  | binary {room inBar s l left argument argument'} (word : Word) (order : ArgOrder)
    (role : word.role = .binary order) (more : atOperandEnd inBar s = false)
    (first : ReadsOperand room inBar s argument l) (more' : atOperandEnd inBar l = false)
    (second : ReadsOperand room inBar l argument' left) :
    ReadsOperand (room + 1) inBar (.symbol word :: s) (.binary word order role argument argument')
      left

/-- `s` begins with the scripts, if a base has `slots` before, and `left` follows them. -/
inductive ReadsScripts :
    (room : Nat) → (inBar : Bool) → Slots → (s : List Lexeme) → Scripts → (left : List Lexeme) →
      Prop where
  | complete {room inBar slots s} (next : ∀ x ∈ s.head?, x.marker? = none) :
    ReadsScripts room inBar slots s (.done .complete) s
  | noOperand {room inBar slots s} (marker : Marker) (ends : atOperandEnd inBar s = true) :
    ReadsScripts room inBar slots (.symbol marker.word :: s) (.done .noOperand)
      (.symbol marker.word :: s)
  | limit {room inBar slots s} (marker : Marker) (more : atOperandEnd inBar s = false)
    (full : (slots.isTaken marker && room ≤ slots.levels + 1) = true) :
    ReadsScripts room inBar slots (.symbol marker.word :: s) (.done .limit)
      (.symbol marker.word :: s)
  | cons {room inBar slots s l left operand scripts} (marker : Marker)
    (more : atOperandEnd inBar s = false)
    (free : (slots.isTaken marker && room ≤ slots.levels + 1) = false)
    (first : ReadsOperand room inBar s operand l)
    (rest : ReadsScripts room inBar (slots.add marker) l scripts left) :
    ReadsScripts room inBar slots (.symbol marker.word :: s) (.cons marker operand scripts) left

/-- `s` begins with the term, and `left` follows it. -/
inductive ReadsTerm :
    (room : Nat) → (inBar : Bool) → (s : List Lexeme) → Term → (left : List Lexeme) → Prop where
  | scripted {room inBar s l left base scripts} (first : ReadsOperand room inBar s base l)
    (second : ReadsScripts room inBar .empty l scripts left)
    (next : left.head? ≠ some (.symbol .slash)) :
    ReadsTerm room inBar s (.scripted base scripts) left
  | noDenominator {room inBar s l left base scripts} (first : ReadsOperand room inBar s base l)
    (second : ReadsScripts room inBar .empty l scripts (.symbol .slash :: left))
    (ends : atOperandEnd inBar left = true) :
    ReadsTerm room inBar s (.noDenominator base scripts) (.symbol .slash :: left)
  | fraction {room inBar s l m n left base scripts base' scripts'}
    (first : ReadsOperand room inBar s base l)
    (second : ReadsScripts room inBar .empty l scripts (.symbol .slash :: m))
    (more : atOperandEnd inBar m = false)
    (third : ReadsOperand room inBar m base' n)
    (fourth : ReadsScripts room inBar .empty n scripts' left) :
    ReadsTerm room inBar s (.fraction base scripts base' scripts') left

/-- `s` begins with the terms of a body, and `left` follows them. -/
inductive ReadsBody :
    (room : Nat) → (inBar : Bool) → (inGroup : Bool) → (s : List Lexeme) → List Term →
      (left : List Lexeme) → Prop where
  | nil {room inBar inGroup s} (ends : bodyEnds inBar inGroup s = true) :
    ReadsBody room inBar inGroup s [] s
  | cons {room inBar inGroup s l left term terms} (goes : bodyEnds inBar inGroup s = false)
    (first : ReadsTerm room inBar s term l) (rest : ReadsBody room inBar inGroup l terms left) :
    ReadsBody room inBar inGroup s (term :: terms) left

end

end FormulaMarkup.Formula
