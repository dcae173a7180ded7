import FormulaMarkup.Formula.Basic

/-!
# From lexemes to a formula

The grammar is

    body     = term*
    term     = scripted | scripted "/" scripted
    scripted = operand (("_" | "^") operand)*
    operand  = leaf | group | bars | function | unary operand | binary operand operand

A level of the formula is read with a reader for the operands of the next level, so the depth of a
formula goes down by one with each level, and each loop on one level uses up lexemes.
-/

namespace FormulaMarkup.Formula

def maxDepth : Nat := 128

/-- What has been read, and the lexemes that are left: no more than were given. -/
structure Parsed (α : Type) (given : List Lexeme) where
  value : α
  left : List Lexeme
  le : left.length ≤ given.length

def Parsed.pure {α : Type} (value : α) (given : List Lexeme) : Parsed α given :=
  ⟨value, given, Nat.le_refl _⟩

/-! ## Where operands and groups end -/

/-- Whether the lexeme closes the group around it. Between bars, a bar does. -/
def closes (inBar : Bool) (x : Lexeme) : Bool :=
  match x.role? with
  | some .closeBracket => true
  | some .leftRight => inBar
  | _ => false

def atOperandEnd (inBar : Bool) : List Lexeme → Bool
  | [] => true
  | x :: _ => closes inBar x

/-- Whether a bar follows that belongs to a bar just read: one outside all brackets that open on the
way, before a bracket that closes what is around. `depth` brackets are open. -/
def hasClosingBar (depth : Nat) : List Lexeme → Bool
  | [] => false
  | x :: rest =>
    match x.role? with
    | some .openBracket => hasClosingBar (depth + 1) rest
    | some .closeBracket =>
      match depth with
      | 0 => false
      | depth + 1 => hasClosingBar depth rest
    | some .leftRight =>
      match depth with
      | 0 => true
      | depth + 1 => hasClosingBar (depth + 1) rest
    | _ => hasClosingBar depth rest

/-! ## One level -/

abbrev OperandReader : Type :=
  (inBar : Bool) → Lexeme → (rest : List Lexeme) → Parsed Operand rest

/-- The scripts that a base has on its current level, and the number of levels before. -/
structure Slots where
  sub : Bool
  sup : Bool
  levels : Nat
  deriving DecidableEq, Repr

namespace Slots

def empty : Slots := ⟨false, false, 0⟩

def isTaken (slots : Slots) : Marker → Bool
  | .sub => slots.sub
  | .sup => slots.sup

/-- One more script. If its place is taken, it begins a level. -/
def add (slots : Slots) (marker : Marker) : Slots :=
  match marker, slots.isTaken marker with
  | .sub, false => { slots with sub := true }
  | .sup, false => { slots with sup := true }
  | .sub, true => ⟨true, false, slots.levels + 1⟩
  | .sup, true => ⟨false, true, slots.levels + 1⟩

end Slots

variable (operand : OperandReader) (room : Nat) (inBar : Bool)

/-- The scripts of a base. A second script of one kind makes the base so far the base of a further
level, and there may be fewer than `room` of these. -/
def parseScripts (slots : Slots) : (s : List Lexeme) → Parsed Scripts s
  | [] => .pure (.done .complete) []
  | x :: s =>
    match x.marker? with
    | none => .pure (.done .complete) (x :: s)
    | some marker =>
      match s with
      | [] => .pure (.done .noOperand) [x]
      | y :: rest =>
        if closes inBar y then
          .pure (.done .noOperand) (x :: y :: rest)
        else if slots.isTaken marker && room ≤ slots.levels + 1 then
          .pure (.done .limit) (x :: y :: rest)
        else
          let first := operand inBar y rest
          let more := parseScripts (slots.add marker) first.left
          ⟨.cons marker first.value more.value, more.left,
            Nat.le_succ_of_le (Nat.le_succ_of_le (Nat.le_trans more.le first.le))⟩
termination_by s => s.length
decreasing_by exact Nat.lt_succ_of_le (Nat.le_succ_of_le (operand inBar y rest).le)

/-- The operand that begins here, if one does. -/
def parseArgument? : (s : List Lexeme) → Option (Parsed Operand s)
  | [] => none
  | x :: rest =>
    if closes inBar x then
      none
    else
      let argument := operand inBar x rest
      some ⟨argument.value, argument.left, Nat.le_succ_of_le argument.le⟩

/-- An operand with its scripts, of which the operand has been read. -/
def parseScripted {given : List Lexeme} (base : Parsed Operand given) :
    Parsed (Operand × Scripts) given :=
  let scripts := parseScripts operand room inBar .empty base.left
  ⟨(base.value, scripts.value), scripts.left, Nat.le_trans scripts.le base.le⟩

/-- The term whose first operand and scripts have been read. -/
def parseFraction {given : List Lexeme} : Parsed (Operand × Scripts) given → Parsed Term given
  | ⟨(base, scripts), [], le⟩ => ⟨.scripted base scripts, [], le⟩
  | ⟨(base, scripts), y :: s, le⟩ =>
    if y = .symbol .slash then
      match parseArgument? operand inBar s with
      | none => ⟨.noDenominator base scripts, y :: s, le⟩
      | some argument =>
        let denominator := parseScripted operand room inBar argument
        ⟨.fraction base scripts denominator.value.1 denominator.value.2, denominator.left,
          Nat.le_trans (Nat.le_succ_of_le denominator.le) le⟩
    else
      ⟨.scripted base scripts, y :: s, le⟩

def parseTerm (x : Lexeme) (rest : List Lexeme) : Parsed Term rest :=
  parseFraction operand room inBar (parseScripted operand room inBar (operand inBar x rest))

/-- The terms up to the end of the input or, in a group, up to what closes it. -/
def parseBody (inGroup : Bool) : (s : List Lexeme) → Parsed (List Term) s
  | [] => .pure [] []
  | x :: rest =>
    if inGroup && closes inBar x then
      .pure [] (x :: rest)
    else
      let term := parseTerm operand room inBar x rest
      let more := parseBody inGroup term.left
      ⟨term.value :: more.value, more.left,
        Nat.le_succ_of_le (Nat.le_trans more.le term.le)⟩
termination_by s => s.length
decreasing_by exact Nat.lt_succ_of_le (parseTerm operand room inBar x rest).le

/-- Takes the lexeme that closes a group, if one is next. -/
def parseClosing (role : Role) : (s : List Lexeme) → Parsed (Option (WordOf role)) s
  | .symbol word :: rest =>
    if h : word.role = role then
      ⟨some ⟨word, h⟩, rest, Nat.le_succ _⟩
    else
      .pure none (.symbol word :: rest)
  | s => .pure none s

def parseGroup (word : Word) (role : word.role = .openBracket) (rest : List Lexeme) :
    Parsed Operand rest :=
  let body := parseBody operand room false true rest
  let closing := parseClosing .closeBracket body.left
  ⟨.group word role body.value closing.value, closing.left, Nat.le_trans closing.le body.le⟩

def parseBars (word : Word) (role : word.role = .leftRight) (rest : List Lexeme) :
    Parsed Operand rest :=
  if hasClosingBar 0 rest then
    let body := parseBody operand room true true rest
    let closing := parseClosing .leftRight body.left
    ⟨.bars word role body.value closing.value, closing.left, Nat.le_trans closing.le body.le⟩
  else
    .pure (.loneBar word role) rest

/-- What begins with a named function. Scripts after the name belong to the name. -/
def parseFunction (word : Word) (role : word.role = .function) (rest : List Lexeme) :
    Parsed Operand rest :=
  let scripts := parseScripts operand room inBar .empty rest
  match parseArgument? operand inBar scripts.left with
  | none => ⟨.functionAlone word role scripts.value, scripts.left, scripts.le⟩
  | some argument =>
    ⟨.function word role scripts.value argument.value, argument.left,
      Nat.le_trans argument.le scripts.le⟩

def parseUnary (word : Word) (kind : UnaryKind) (role : word.role = .unary kind)
    (rest : List Lexeme) : Parsed Operand rest :=
  match kind, role, rest with
  | .text, role, .text body :: s => ⟨.verbatim word role body, s, Nat.le_succ _⟩
  | kind, role, rest =>
    match parseArgument? operand inBar rest with
    | none => .pure (.noArgument word (by rw [role]; rfl)) rest
    | some argument => ⟨.unary word kind role argument.value, argument.left, argument.le⟩

def parseBinary (word : Word) (order : ArgOrder) (role : word.role = .binary order)
    (rest : List Lexeme) : Parsed Operand rest :=
  match parseArgument? operand inBar rest with
  | none => .pure (.noArgument word (by rw [role]; rfl)) rest
  | some first =>
    match parseArgument? operand inBar first.left with
    | none => ⟨.noSecond word order role first.value, first.left, first.le⟩
    | some second =>
      ⟨.binary word order role first.value second.value, second.left,
        Nat.le_trans second.le first.le⟩

/-- What begins with a word that opens a level. -/
def parseNested (word : Word) (nests : word.role.nests = true) (rest : List Lexeme) :
    Parsed Operand rest :=
  match role : word.role with
  | .openBracket => parseGroup operand room word role rest
  | .leftRight => parseBars operand room word role rest
  | .function => parseFunction operand room inBar word role rest
  | .unary kind => parseUnary operand inBar word kind role rest
  | .binary order => parseBinary operand inBar word order role rest
  | .identifier | .operator | .closeBracket | .embellished | .wordOperator =>
    absurd nests (by rw [role]; decide)

/-! ## All levels -/

/-- The operand that begins with `x`, if `nested` reads what begins with a word that opens a
level. -/
def parseLeaf
    (nested : (word : Word) → word.role.nests = true → (rest : List Lexeme) → Parsed Operand rest)
    (x : Lexeme) (rest : List Lexeme) : Parsed Operand rest :=
  match x with
  | .number n => .pure (.number n) rest
  | .text body => .pure (.text body) rest
  | .character c => .pure (.character c) rest
  | .symbol word =>
    match role : word.role with
    | .identifier | .operator | .embellished => .pure (.leaf word (by rw [role]; rfl)) rest
    | .wordOperator => .pure (.keyword word role) rest
    | .closeBracket => .pure (.strayClosing word role) rest
    | .openBracket | .leftRight | .function | .unary _ | .binary _ =>
      nested word (by rw [role]; rfl) rest

/-- The operand that begins with a lexeme, where `room` more levels may open. -/
def parseOperand : (room : Nat) → OperandReader
  | 0, _, x, rest => parseLeaf (fun word nests rest => .pure (.beyondLimit word nests) rest) x rest
  | room + 1, inBar, x, rest => parseLeaf (parseNested (parseOperand room) room inBar) x rest

def parse (s : List Lexeme) : List Term :=
  (parseBody (parseOperand maxDepth) maxDepth false false s).value

end FormulaMarkup.Formula
