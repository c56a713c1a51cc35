import VarBlock.Toml.DateTime
import VarBlock.Toml.Table

/-!
# TOML documents

    text (String) ──document──▶ lines (List Line) ──assemble──▶ table (List (String × Value))

The values and lines of a document are read first; then the lines are put together. `parse?` does
both, and refuses what is not TOML 1.0.
-/

namespace VarBlock.Toml

open Config (Value)
open Text
open Text.Reading (satisfy char literal many maybe separated)

/-! ### Keys -/

/-- A key has fewer parts, and values are nested less deep, than this. -/
def nestingLimit : Nat := 80

/-- One part of a key: a bare word or a string. -/
def keyPart : Reading String := do
  blanks
  let part ← basicString <|> literalString <|>
    (String.ofList <$> Reading.run1 fun c => c.isAlphanum || c = '_' || c = '-')
  blanks
  return part

/-- The parts of a key between points: those that lead to its table, and the last one. -/
def key : Reading (List String × String) := do
  let parts ← separated keyPart (char '.')
  match parts.getLast? with
  | some last => if parts.length < nestingLimit then return (parts.dropLast, last) else failure
  | none => failure

/-! ### Values -/

def scalar : Reading Node :=
  let simple (p : Reading Value) : Reading Node := .scalar <$> p
  simple (.string <$> string) <|> .dateTime <$> dateTime <|> simple (.float <$> float) <|>
    simple (.integer <$> integer) <|> simple (do literal "true"; return .boolean true) <|>
    simple (do literal "false"; return .boolean false)

/-- What may stand between the elements of an array: blanks, line ends and comments. -/
def arraySpace : Reading Unit := do
  let _ ← many ((do let _ ← satisfy isBlank) <|> newline <|> (do comment; newline))

/-- An array of values; a comma may follow the last one. -/
def array (value : Reading Node) : Reading Node := do
  let element : Reading Node := do
    arraySpace
    let v ← value
    arraySpace
    return v
  char '['
  let vs ← maybe do
    let vs ← separated element (char ',')
    let _ ← maybe (char ',')
    return vs
  arraySpace
  char ']'
  return .array (vs.getD [])

/-- A table on one line, put together like the lines of a document. -/
def inlineTable (value : Reading Node) : Reading Node := do
  let entry : Reading ((List String × String) × Node) := do
    let k ← key
    char '='
    blanks
    let v ← value
    blanks
    return (k, v)
  char '\x7b'
  let es ← maybe (separated entry (char ','))
  blanks
  char '\x7d'
  match (es.getD []).foldlM (fun acc ((path, k), v) => Entries.insert path k v false acc) [] with
  | some entries => return .inlineTable entries
  | none => failure

/-- A value with at most the given number of arrays and inline tables around its innermost ones. -/
def value : Nat → Reading Node
  | 0 => scalar
  | depth + 1 => array (value depth) <|> inlineTable (value depth) <|> scalar

/-! ### Lines -/

/-- A line that says something. -/
inductive Line
  | header (path : List String) (key : String)
  /-- The header of a new table in an array of tables. -/
  | elementHeader (path : List String) (key : String)
  | entry (path : List String) (key : String) (n : Node)

/-- The end of a line or of the document. -/
def lineEnd : Reading Unit := newline <|> Reading.atEnd

/-- What may follow on a line that says something. -/
def trailing : Reading Unit := do
  blanks
  let _ ← maybe comment
  lineEnd

/-- A header in double or single brackets. -/
def headerLine : Reading Line := do
  char '['
  let double ← maybe (char '[')
  let (path, k) ← key
  char ']'
  match double with
  | some _ => do char ']'; trailing; return .elementHeader path k
  | none => do trailing; return .header path k

/-- A key and a value with an equals sign between them. -/
def entryLine : Reading Line := do
  let (path, k) ← key
  char '='
  blanks
  let v ← value (nestingLimit - 1)
  trailing
  return .entry path k v

/-- A line, which may be empty or a comment. -/
def line : Reading (Option Line) := do
  blanks
  (do newline; return none) <|> (do comment; lineEnd; return none) <|> some <$> headerLine <|>
    some <$> entryLine

/-- The lines of a document that say something. A byte order mark may stand before them. -/
def document : Reading (List Line) := do
  let _ ← maybe (satisfy (·.toNat = 0xFEFF))
  let lines ← many line
  blanks
  return lines.reduceOption

/-! ### Assembly -/

/-- A document so far: the path of the last header, and all entries. -/
structure Assembly where
  current : List String
  entries : Entries

/-- Add a line to a document. An entry goes to the table of the last header. -/
def Assembly.add (a : Assembly) : Line → Option Assembly
  | .header path k => (a.entries.openTable path k).map (⟨path ++ [k], ·⟩)
  | .elementHeader path k => (a.entries.openElement path k).map (⟨path ++ [k], ·⟩)
  | .entry path k n =>
    (a.entries.within false (fun isDotted => Entries.insert path k n isDotted) a.current false).map
      (⟨a.current, ·⟩)

/-- Put the lines of a document together. -/
def assemble (lines : List Line) : Option (List (String × Value)) :=
  (lines.foldlM Assembly.add ⟨[], []⟩).bind fun a => a.entries.toTable?

/-- The table that a text describes. -/
def parse? (s : String) : Option (List (String × Value)) := (document.all? s).bind assemble

end VarBlock.Toml
