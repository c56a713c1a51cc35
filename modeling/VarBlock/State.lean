import VarBlock.Token

/-!
# The states of a declaration block

A block is read token by token. A state says what has just been read, and with it what may come
next. `State.transition` is the step on a token that fits, and says what was expected when the
token does not fit; `State.predict` is where reading goes on after a token that did not fit.
-/

namespace VarBlock

/-- What has been read last: nothing yet (`start`), or a token of the named kind in its place. -/
inductive State
  | start
  | var
  | identifier
  | type
  | delimiter
  | colon
  | semicolon
deriving DecidableEq, Repr

/-- What may come next. -/
inductive Expectation
  | varKeyword
  | identifier
  | colonOrDelimiter
  | type
  | semicolon
deriving DecidableEq, Repr

def Expectation.name : Expectation → String
  | varKeyword => "var_keyword"
  | identifier => "identifier"
  | colonOrDelimiter => "colon_or_delimiter"
  | type => "type"
  | semicolon => "semicolon"

/-- A token that does not fit: what was expected in its place, and its kind. -/
structure Mismatch where
  expected : Expectation
  found : TokenKind
deriving DecidableEq, Repr

namespace State

def name : State → String
  | start => "Start"
  | var => "Var"
  | identifier => "Identifier"
  | type => "Type"
  | delimiter => "Delimiter"
  | colon => "Colon"
  | semicolon => "Semicolon"

/-- A block may end only after the semicolon of a declaration. -/
def isTerminal (s : State) : Bool := s = semicolon

/-- What may come next in a state. -/
def expectation : State → Expectation
  | start => .varKeyword
  | var => .identifier
  | delimiter => .identifier
  | semicolon => .identifier
  | identifier => .colonOrDelimiter
  | colon => .type
  | type => .semicolon

/-- The step on a token that fits. At the start only the text of the token counts, later only its
kind. -/
def transition (s : State) (t : Token) : Except Mismatch State :=
  match s, t.kind with
  | start, _ => if t.text = TokenKind.varWord then .ok var else mismatch
  | var, .identifier => .ok identifier
  | delimiter, .identifier => .ok identifier
  | semicolon, .identifier => .ok identifier
  | identifier, .colon => .ok colon
  | identifier, .delimiter => .ok delimiter
  | colon, .type => .ok type
  | type, .semicolon => .ok semicolon
  | _, _ => mismatch
where
  /-- The refusal of `t` in `s`. -/
  mismatch : Except Mismatch State := .error ⟨s.expectation, t.kind⟩

/-- The state after a token that did not fit, which is taken to stand for the expected one. After
an identifier two tokens are expected, and the token that follows tells which one was meant. -/
def predict (s : State) (next : Option Token) : State :=
  match s with
  | start => var
  | var => identifier
  | delimiter => identifier
  | semicolon => identifier
  | colon => type
  | type => semicolon
  | identifier =>
    match next.map Token.kind with
    | some .identifier => delimiter
    | some .type => colon
    | _ => identifier

/-- The state after the token `t`, whether it fits or not; `next` is the token after it. -/
def advance (s : State) (t : Token) (next : Option Token) : State :=
  match s.transition t with
  | .ok s' => s'
  | .error _ => s.predict next

end State

end VarBlock
