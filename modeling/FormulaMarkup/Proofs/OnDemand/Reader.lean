import FormulaMarkup.Formula.Parse
import FormulaMarkup.Token.Lookahead

/-!
# Reading a formula from tokens on demand

A formula can be read from tokens that are only looked at when they matter: one or two of them at a
time, and as many as it takes for the other bar of a bar. A run of this reader keeps a record of
what it asks for. It need not have an end by its form; `none` is a run without one.
-/

namespace FormulaMarkup

def TokenItem.lexeme? : TokenItem → Option Lexeme
  | .token t => some t.lexeme
  | .endOfInput _ => none

/-- The lexeme as a word that closes a group. -/
def Lexeme.closing? (role : Role) : Lexeme → Option (WordOf role)
  | .symbol word => if h : word.role = role then some ⟨word, h⟩ else none
  | _ => none

namespace OnDemand

open Formula

/-! ## The state of a run -/

/-- Where an operand is asked for. -/
inductive Site where
  /-- at the beginning of a term, in a group or outside of all groups -/
  | term (inGroup : Bool)
  | denominator
  | script
  | argument
  deriving DecidableEq, Repr

/-- What a run tells about itself. -/
inductive Event where
  /-- an operand is asked for, and what is next is taken to begin it -/
  | operand (site : Site) (inBar : Bool) (groups : Nat) (item : TokenItem)
  /-- the scripts of one level are attached to their base -/
  | attach (sub sup : Bool)
  /-- a loop goes on; so much had been taken before the round and after it -/
  | round (before after : Nat)

structure Reader where
  ahead : Lookahead
  /-- how many levels are open -/
  depth : Nat
  /-- whether a bar closes the innermost group -/
  inBar : Bool
  /-- how many groups are open -/
  groups : Nat
  /-- what has been taken, in this order -/
  taken : List TokenItem
  /-- what has happened, the last first -/
  events : List Event

def Reader.ofInput (input : String) : Reader := ⟨.ofInput input, 0, false, 0, [], []⟩

abbrev Run (α : Type) : Type := StateT Reader Option α

/-! ## Single steps -/

namespace Run

def peek : Run (Option Lexeme) := fun r =>
  let (item, ahead) := r.ahead.peek
  some (item.lexeme?, { r with ahead })

def peekSecond : Run (Option Lexeme) := fun r =>
  let (item, ahead) := r.ahead.peekSecond
  some (item.lexeme?, { r with ahead })

def hasClosingBar : Run Bool := fun r =>
  let (found, ahead) := r.ahead.hasClosingBar
  some (found, { r with ahead })

def next : Run TokenItem := fun r =>
  let (item, ahead) := r.ahead.next
  some (item, { r with ahead, taken := r.taken ++ [item] })

def getInBar : Run Bool := fun r => some (r.inBar, r)

def getDepth : Run Nat := fun r => some (r.depth, r)

def countTaken : Run Nat := fun r => some (r.taken.length, r)

def enter : Run Unit := fun r => some ((), { r with depth := r.depth + 1 })

def leave : Run Unit := fun r => some ((), { r with depth := r.depth - 1 })

/-- Begins the content of a group, and tells whether a bar closes the group around it. -/
def openGroup (bars : Bool) : Run Bool := fun r =>
  some (r.inBar, { r with inBar := bars, groups := r.groups + 1 })

def closeGroup (outer : Bool) : Run Unit := fun r =>
  some ((), { r with inBar := outer, groups := r.groups - 1 })

def record (event : Event) : Run Unit := fun r =>
  some ((), { r with events := event :: r.events })

def recordRound (before : Nat) : Run Unit := fun r =>
  some ((), { r with events := .round before r.taken.length :: r.events })

/-- Takes what is next as the beginning of an operand. -/
def demand (site : Site) : Run (Option Lexeme) := fun r =>
  let (item, ahead) := r.ahead.next
  some (item.lexeme?,
    { r with
      ahead
      taken := r.taken ++ [item]
      events := .operand site r.inBar r.groups item :: r.events })

end Run

/-! ## Decisions -/

/-- Whether no operand can begin with what is next. -/
def endsOperand (inBar : Bool) : Option Lexeme → Bool
  | none => true
  | some x => closes inBar x

namespace Run

def atOperandEnd : Run Bool := do
  return endsOperand (← getInBar) (← peek)

/-- Whether a mark that is next lacks an operand behind it. -/
def lacksOperand : Run Bool := do
  return endsOperand (← getInBar) (← peekSecond)

def attach (slots : Slots) : Run Unit := record (.attach slots.sub slots.sup)

/-- Attaches the scripts of a full level. -/
def attachFull (slots : Slots) (marker : Marker) : Run Unit :=
  if slots.isTaken marker then attach slots else pure ()

/-- Attaches the scripts of the last level, if there are any. -/
def attachLast (slots : Slots) : Run Unit :=
  if slots.sub || slots.sup then attach slots else pure ()

def endScripts (slots : Slots) (reason : ScriptsEnd) : Run Scripts := do
  attachLast slots
  return .done reason

def takeClosing (role : Role) : Run (Option (WordOf role)) := do
  match (← peek).bind (Lexeme.closing? role) with
  | none => return none
  | some word =>
    let _ ← next
    return some word

end Run

/-! ## Parts of formulas

Each part is read by a call on the state as it is at that point. -/

namespace Reader

open Run

mutual

def readBody (inGroup : Bool) : Run (List Term) := do
  match ← peek with
  | none => return []
  | some x =>
    if inGroup && closes (← getInBar) x then
      return []
    else
      let before ← countTaken
      let term ← (· |>.readTerm inGroup)
      recordRound before
      let terms ← (· |>.readBody inGroup)
      return term :: terms
partial_fixpoint

def readTerm (inGroup : Bool) : Run Term := do
  let (base, scripts) ← (· |>.readScripted (.term inGroup))
  if (← peek) = some (.symbol .slash) then
    if ← lacksOperand then
      return .noDenominator base scripts
    else
      let _ ← next
      let (base', scripts') ← (· |>.readScripted .denominator)
      return .fraction base scripts base' scripts'
  else
    return .scripted base scripts
partial_fixpoint

def readScripted (site : Site) : Run (Operand × Scripts) := do
  let base ← (· |>.readOperand site)
  let scripts ← (· |>.readScripts .empty)
  return (base, scripts)
partial_fixpoint

def readScripts (slots : Slots) : Run Scripts := do
  match (← peek).bind Lexeme.marker? with
  | none => endScripts slots .complete
  | some marker =>
    if ← lacksOperand then
      endScripts slots .noOperand
    else if slots.isTaken marker && maxDepth ≤ (← getDepth) + slots.levels + 1 then
      endScripts slots .limit
    else
      attachFull slots marker
      let before ← countTaken
      let operand ← (· |>.readMarked)
      recordRound before
      let more ← (· |>.readScripts (slots.add marker))
      return .cons marker operand more
partial_fixpoint

/-- The operand behind a marker. -/
def readMarked : Run Operand := do
  let _ ← next
  (· |>.readOperand .script)
partial_fixpoint

/-- At the end of the input there is no operand, and an empty text stands for it. -/
def readOperand (site : Site) : Run Operand := do
  match ← demand site with
  | none => return .text ""
  | some x => (· |>.readFrom x)
partial_fixpoint

/-- The operand whose first lexeme has been taken. -/
def readFrom (x : Lexeme) : Run Operand := do
  match x with
  | .number n => return .number n
  | .text body => return .text body
  | .character c => return .character c
  | .symbol word =>
    match role : word.role with
    | .identifier | .operator | .embellished => return .leaf word (congrArg Role.isLeaf role)
    | .wordOperator => return .keyword word role
    | .closeBracket => return .strayClosing word role
    | .openBracket | .leftRight | .function | .unary _ | .binary _ =>
      (· |>.readWord word (congrArg Role.nests role))
partial_fixpoint

/-- What begins with a word that opens a level, unless it is too deep. -/
def readWord (word : Word) (nests : word.role.nests = true) : Run Operand := do
  if maxDepth ≤ (← getDepth) then
    return .beyondLimit word nests
  else
    enter
    let operand ← (· |>.readNested word nests)
    leave
    return operand
partial_fixpoint

def readNested (word : Word) (nests : word.role.nests = true) : Run Operand := do
  match role : word.role with
  | .openBracket => (· |>.readGroup word role)
  | .leftRight => (· |>.readBars word role)
  | .function => (· |>.readFunction word role)
  | .unary kind => (· |>.readUnary word kind role)
  | .binary order => (· |>.readBinary word order role)
  | .identifier | .operator | .closeBracket | .embellished | .wordOperator =>
    absurd ((congrArg Role.nests role).symm.trans nests) Bool.false_ne_true
partial_fixpoint

def readGroup (word : Word) (role : word.role = .openBracket) : Run Operand := do
  let outer ← openGroup false
  let body ← (· |>.readBody true)
  closeGroup outer
  let closing ← takeClosing .closeBracket
  return .group word role body closing
partial_fixpoint

def readBars (word : Word) (role : word.role = .leftRight) : Run Operand := do
  if ← hasClosingBar then
    let outer ← openGroup true
    let body ← (· |>.readBody true)
    closeGroup outer
    let closing ← takeClosing .leftRight
    return .bars word role body closing
  else
    return .loneBar word role
partial_fixpoint

def readFunction (word : Word) (role : word.role = .function) : Run Operand := do
  let scripts ← (· |>.readScripts .empty)
  if ← atOperandEnd then
    return .functionAlone word role scripts
  else
    let argument ← (· |>.readOperand .argument)
    return .function word role scripts argument
partial_fixpoint

def readUnary (word : Word) (kind : UnaryKind) (role : word.role = .unary kind) : Run Operand := do
  if ← atOperandEnd then
    return .noArgument word (congrArg Role.isCall role)
  else if h : kind = .text then
    match ← peek with
    | some (.text body) =>
      let _ ← next
      return .verbatim word (by rw [role, h]) body
    | _ => (· |>.readArgument word kind role)
  else
    (· |>.readArgument word kind role)
partial_fixpoint

def readArgument (word : Word) (kind : UnaryKind) (role : word.role = .unary kind) :
    Run Operand := do
  let argument ← (· |>.readOperand .argument)
  return .unary word kind role argument
partial_fixpoint

def readBinary (word : Word) (order : ArgOrder) (role : word.role = .binary order) :
    Run Operand := do
  if ← atOperandEnd then
    return .noArgument word (congrArg Role.isCall role)
  else
    let first ← (· |>.readOperand .argument)
    if ← atOperandEnd then
      return .noSecond word order role first
    else
      let second ← (· |>.readOperand .argument)
      return .binary word order role first second
partial_fixpoint

end

end Reader

/-- The formula of an input and the state after the run, if the run ends. -/
def run (input : String) : Option (List Term × Reader) := Reader.readBody false (.ofInput input)

end OnDemand

end FormulaMarkup
