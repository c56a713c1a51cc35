import VarBlock.State
import VarBlock.Token.Lexer

/-!
# Checking a declaration block

    tokens (List Token) ──validate──▶ report (Report)

Every token makes one step of the trace. A token that does not fit is reported and reading goes on
in the predicted state; a block that ends too early is reported at the end of its last token.
-/

namespace VarBlock

/-- What is wrong with a block. -/
inductive Problem
  /-- A token that does not fit in the state it was met in. -/
  | unexpectedToken (state : State) (mismatch : Mismatch) (text : String)
  /-- The block ends in a state in which it may not end. -/
  | unterminated (state : State)
deriving DecidableEq, Repr

namespace Problem

def state : Problem → State
  | unexpectedToken s _ _ => s
  | unterminated s => s

end Problem

/-- A problem and the characters it concerns. -/
structure Diagnostic where
  problem : Problem
  range : Span
deriving DecidableEq, Repr

namespace Diagnostic

/-- The diagnostic of a token that does not fit, over the span of the token. -/
def unexpected (s : State) (m : Mismatch) (t : Token) : Diagnostic :=
  ⟨.unexpectedToken s m t.text, t.span⟩

/-- The diagnostic of a block that ends too early: an empty range where more was expected. -/
def unterminated (s : State) (offset : Nat) : Diagnostic := ⟨.unterminated s, ⟨offset, offset⟩⟩

/-- Whether a diagnostic is about a token. -/
def isUnexpected (d : Diagnostic) : Bool :=
  match d.problem with
  | .unexpectedToken _ _ _ => true
  | .unterminated _ => false

/-- Whether a diagnostic is about the end of the block. -/
def isUnterminated (d : Diagnostic) : Bool := !d.isUnexpected

end Diagnostic

/-- One token's move from a state to the next. -/
structure Step where
  index : Nat
  source : State
  target : State
  recovered : Bool
deriving DecidableEq, Repr

structure Report where
  finalState : State
  diagnostics : List Diagnostic
  trace : List Step
deriving DecidableEq, Repr

namespace Report

/-- A block is valid when nothing is wrong with it. -/
def isValid (r : Report) : Bool := r.diagnostics.isEmpty

/-- The indices of the tokens that did not fit. -/
def recovered (r : Report) : List Nat := (r.trace.filter Step.recovered).map Step.index

end Report

/-! ### Reading from a state on -/

namespace State

/-- Whether a token does not fit. -/
def rejects (s : State) (t : Token) : Bool :=
  match s.transition t with
  | .ok _ => false
  | .error _ => true

/-- The state after all of the tokens. -/
def run (s : State) : List Token → State
  | [] => s
  | t :: ts => run (s.advance t ts.head?) ts

/-- The steps of the tokens, numbered from `index`. -/
def steps (s : State) (index : Nat) : List Token → List Step
  | [] => []
  | t :: ts =>
    let s' := s.advance t ts.head?
    ⟨index, s, s', s.rejects t⟩ :: s'.steps (index + 1) ts

/-- The diagnostics of the tokens that do not fit. -/
def unexpected (s : State) : List Token → List Diagnostic
  | [] => []
  | t :: ts =>
    let rest := (s.advance t ts.head?).unexpected ts
    match s.transition t with
    | .ok _ => rest
    | .error m => .unexpected s m t :: rest

end State

/-- The offset just past the last of the tokens, 0 if there is none. -/
def endOffset (ts : List Token) : Nat := (ts.getLast?.map Token.stop).getD 0

/-- Check a list of tokens, whether or not some source has these tokens. -/
def validate (ts : List Token) : Report where
  finalState := State.start.run ts
  diagnostics :=
    State.start.unexpected ts ++
      let s := State.start.run ts
      if s.isTerminal then [] else [.unterminated s (endOffset ts)]
  trace := State.start.steps 0 ts

def check (source : String) : Report := validate (tokenize source)

end VarBlock
