/-!
# Reading text from the front

A `Reading` takes what it needs from the front of a text and leaves the rest, or refuses the text.
Of two readings `p <|> q` the second is tried on the same text where the first one refuses.
-/

namespace VarBlock.Text

/-- What is read, and the rest of the text. -/
abbrev Reading : Type → Type := StateT (List Char) Option

namespace Reading

variable {α β : Type}

/-- One character of a class. -/
def satisfy (p : Char → Bool) : Reading Char := fun cs =>
  match cs with
  | [] => none
  | c :: rest => if p c then some (c, rest) else none

def char (c : Char) : Reading Unit := do let _ ← satisfy (· = c)

def literal (s : String) : Reading Unit := s.toList.forM char

/-- The longest run of characters of a class, which may be empty. -/
def run (p : Char → Bool) : Reading (List Char) := fun cs => some (cs.takeWhile p, cs.dropWhile p)

/-- The longest run of characters of a class, at least one. -/
def run1 (p : Char → Bool) : Reading (List Char) := do
  let c ← satisfy p
  let cs ← run p
  return c :: cs

/-- Up to `n` times the same, as often as it can be read. -/
def upTo : Nat → Reading α → Reading (List α)
  | 0, _ => pure []
  | n + 1, p => (do let a ← p; let as ← upTo n p; return a :: as) <|> pure []

/-- The same again and again, as often as it can be read. What takes no character is not read more
often than there are characters. -/
def many (p : Reading α) : Reading (List α) := fun cs => upTo cs.length p cs

def times : Nat → Reading α → Reading (List α)
  | 0, _ => pure []
  | n + 1, p => do let a ← p; let as ← times n p; return a :: as

def maybe (p : Reading α) : Reading (Option α) := (some <$> p) <|> pure none

/-- One or more items with separators between them. -/
def separated (item : Reading α) (separator : Reading β) : Reading (List α) := do
  let a ← item
  let as ← many (do let _ ← separator; item)
  return a :: as

/-- The next characters, up to `n`, without taking them. -/
def peek (n : Nat) : Reading (List Char) := fun cs => some (cs.take n, cs)

def atEnd : Reading Unit := fun cs => if cs.isEmpty then some ((), cs) else none

def all? (p : Reading α) (s : String) : Option α :=
  match p s.toList with
  | some (a, []) => some a
  | _ => none

end Reading

end VarBlock.Text
