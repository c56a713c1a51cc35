/-!
# Sample blocks

Two blocks to try the checker on: one that is valid and one with misplaced words.
-/

namespace VarBlock

/-- A block that comes with the library. -/
inductive Sample
  | valid
  | withErrors
deriving DecidableEq, Repr

namespace Sample

def all : List Sample := [valid, withErrors]

def name : Sample → String
  | valid => "valid"
  | withErrors => "with-errors"

def source : Sample → String
  | valid =>
    "var\n    testInteger: integer;\n    bool, bool2: boolean;\n    reel: real;"
  | withErrors =>
    "real\n    testInteger: var;\n    bool, bool2: boolean;\n    integer: real;"

def ofName? (s : String) : Option Sample := all.find? fun x => x.name = s

end Sample

end VarBlock
