import VarBlock.Language
import VarBlock.Report

/-!
# Messages

What is wrong with a block, said in a language.
-/

namespace VarBlock

/-- A problem in words. -/
def Problem.message (p : Problem) (l : Language) : String :=
  match p with
  | .unexpectedToken _ mismatch text => l.unexpectedToken mismatch text
  | .unterminated _ => l.unterminated

/-- The message of a diagnostic says what is wrong; where it is stands apart. -/
def Diagnostic.message (d : Diagnostic) (l : Language) : String := d.problem.message l

/-- A token as one word: its kind, its quoted text and its offset. -/
def Token.display (t : Token) : String :=
  t.kind.name ++ "(" ++ Text.quoted t.text ++ ")@" ++ toString t.offset

end VarBlock
