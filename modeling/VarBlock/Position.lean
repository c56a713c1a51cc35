/-!
# Lines and columns

A `LineTable` holds where the lines of a text start, and turns an offset into a line and a column.
Lines end at each `'\n'`; lines and columns are counted from 1, columns in characters.
-/

namespace VarBlock

/-- A place in a text as a reader counts it. -/
structure Position where
  line : Nat
  column : Nat
deriving DecidableEq, Repr

namespace Position

/-- A position is written as its line and its column. -/
def text (p : Position) : String := s!"{p.line}:{p.column}"

end Position

/-- The offsets at which the lines of a text start, in order, and the length of the text. -/
structure LineTable where
  starts : Array Nat
  length : Nat
deriving DecidableEq, Repr

namespace LineTable

/-- The offsets just past each line end of `cs`, where `offset` characters come before `cs`. -/
def startsAfter (offset : Nat) : List Char → List Nat
  | [] => []
  | c :: cs =>
    if c = '\n' then (offset + 1) :: startsAfter (offset + 1) cs else startsAfter (offset + 1) cs

/-- The table of a text. -/
def ofString (source : String) : LineTable where
  starts := (0 :: startsAfter 0 source.toList).toArray
  length := source.length

/-- Binary search for the number of entries that are at most `offset`, given that it lies between
`lo` and `hi`. -/
def countUpTo (starts : Array Nat) (offset lo hi : Nat) (h : hi ≤ starts.size) : Nat :=
  if hlt : lo < hi then
    let mid := (lo + hi) / 2
    if starts[mid] ≤ offset then countUpTo starts offset (mid + 1) hi h
    else countUpTo starts offset lo mid (by omega)
  else lo
termination_by hi - lo

/-- The place of the character at `offset`; an offset past the end stands for the end. -/
def position (table : LineTable) (offset : Nat) : Position :=
  let offset := min offset table.length
  let line := countUpTo table.starts offset 0 table.starts.size (Nat.le_refl _)
  ⟨line, offset - table.starts.getD (line - 1) 0 + 1⟩

end LineTable

end VarBlock
