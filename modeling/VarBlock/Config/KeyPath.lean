import VarBlock.Text.Reading

/-!
# Key paths

The way to a value in a configuration: a name, then the names of entries and the indices of
elements, as in `output.format` or `items[2].name`.
-/

namespace VarBlock.Config

open Text

/-- A step from a value to one inside it. -/
inductive KeyStep
  | child (name : String)
  | index (i : Nat)
deriving DecidableEq, Repr

/-- The name of a top-level entry, and the steps from there. -/
structure KeyPath where
  root : String
  steps : List KeyStep
deriving DecidableEq, Repr

namespace KeyPath

/-- The characters of names in paths. -/
def isNameChar (c : Char) : Bool := c.isAlphanum || c = '_' || c = '-' || c = ' '

/-- A name: one or more of its characters. -/
def name : Reading String := String.ofList <$> Reading.run1 isNameChar

/-- The number that decimal digits stand for. -/
def digitsValue (ds : List Char) : Nat := ds.foldl (fun n d => 10 * n + (d.toNat - '0'.toNat)) 0

/-- An index, with blanks around it. It fits a signed 64-bit integer and is not negative. -/
def index : Reading Nat := do
  let _ ← Reading.run fun c => c = ' ' || c = '\t'
  let negative ← Reading.maybe (Reading.char '-')
  let n := digitsValue (← Reading.run1 Char.isDigit)
  let _ ← Reading.run fun c => c = ' ' || c = '\t'
  if n ≤ 0x7FFFFFFFFFFFFFFF && (negative.isNone || n = 0) then return n else failure

/-- A name after a point, or an index in brackets. -/
def step : Reading KeyStep :=
  (do Reading.char '.'; .child <$> name) <|>
  (do Reading.char '['; let i ← index; Reading.char ']'; return .index i)

def path : Reading KeyPath := do
  let root ← name
  return ⟨root, ← Reading.many step⟩

def ofString? (s : String) : Option KeyPath := path.all? s

def stepText : KeyStep → String
  | .child name => "." ++ name
  | .index i => "[" ++ toString i ++ "]"

def text (p : KeyPath) : String := p.root ++ String.join (p.steps.map stepText)

end KeyPath

end VarBlock.Config
