import FormulaMarkup.Token.Lexer

/-!
# Looking ahead in tokens that are read on demand

Tokens are read only when they are looked at and then kept until they are taken, so looking ahead
does not change what is taken later.
-/

namespace FormulaMarkup

/-- What stands at a place: a token, or the end of the input with its position. -/
inductive TokenItem where
  | token (token : Token)
  | endOfInput (position : Nat)
  deriving DecidableEq

/-- A lexer and the tokens read from it but not taken yet. -/
structure Lookahead where
  lexer : Lexer
  buffer : List Token
  exhausted : Bool
  /-- where the input ends -/
  length : Nat

namespace Lookahead

def ofInput (input : String) : Lookahead :=
  ⟨.ofInput input, [], false, Text.width input.toList⟩

def load (ahead : Lookahead) : Lookahead :=
  if ahead.exhausted then
    ahead
  else
    match ahead.lexer.next with
    | (some token, lexer) => { ahead with lexer, buffer := ahead.buffer ++ [token] }
    | (none, lexer) => { ahead with lexer, exhausted := true }

def loadMany : Nat → Lookahead → Lookahead
  | 0, ahead => ahead
  | n + 1, ahead => loadMany n ahead.load

def ensure (n : Nat) (ahead : Lookahead) : Lookahead :=
  loadMany (n + 1 - ahead.buffer.length) ahead

def peekNth (n : Nat) (ahead : Lookahead) : TokenItem × Lookahead :=
  let ahead := ahead.ensure n
  match ahead.buffer[n]? with
  | some token => (.token token, ahead)
  | none => (.endOfInput ahead.length, ahead)

def peek (ahead : Lookahead) : TokenItem × Lookahead := ahead.peekNth 0

def peekSecond (ahead : Lookahead) : TokenItem × Lookahead := ahead.peekNth 1

/-- Takes the next token. At the end of the input nothing is taken. -/
def next (ahead : Lookahead) : TokenItem × Lookahead :=
  let ahead := ahead.ensure 0
  match ahead.buffer with
  | token :: buffer => (.token token, { ahead with buffer })
  | [] => (.endOfInput ahead.length, ahead)

/-- Looks from the place `n` tokens ahead, with `depth` brackets open, for a bar that closes. -/
def scanClosingBar : (fuel depth n : Nat) → Lookahead → Bool × Lookahead
  | 0, _, _, ahead => (false, ahead)
  | fuel + 1, depth, n, ahead =>
    match ahead.peekNth n with
    | (.endOfInput _, ahead) => (false, ahead)
    | (.token token, ahead) =>
      match token.lexeme.role?, depth with
      | some .openBracket, depth => ahead.scanClosingBar fuel (depth + 1) (n + 1)
      | some .closeBracket, 0 => (false, ahead)
      | some .closeBracket, depth + 1 => ahead.scanClosingBar fuel depth (n + 1)
      | some .leftRight, 0 => (true, ahead)
      | _, depth => ahead.scanClosingBar fuel depth (n + 1)

/-- Whether a bar follows that belongs to a bar just taken. There are no more tokens to look at than
there are in the buffer and characters in the rest. -/
def hasClosingBar (ahead : Lookahead) : Bool × Lookahead :=
  ahead.scanClosingBar (ahead.buffer.length + ahead.lexer.rest.length + 1) 0 0

def takeUpTo : Nat → Lookahead → List Token × Lookahead
  | 0, ahead => ([], ahead)
  | n + 1, ahead =>
    match ahead.next with
    | (.endOfInput _, ahead) => ([], ahead)
    | (.token token, ahead) =>
      let (tokens, ahead) := takeUpTo n ahead
      (token :: tokens, ahead)

def takeAll (ahead : Lookahead) : List Token × Lookahead :=
  ahead.takeUpTo (ahead.buffer.length + ahead.lexer.rest.length + 1)

end Lookahead

end FormulaMarkup
