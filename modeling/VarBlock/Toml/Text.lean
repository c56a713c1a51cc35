import VarBlock.Text.Reading

/-!
# TOML: blanks, comments and strings

Line ends are a line feed, alone or after a carriage return. Strings are quoted or literal, on one
line or, between triple quotes, on several.
-/

namespace VarBlock.Toml

open Text
open Text.Reading (satisfy char literal run many times maybe)

def isBlank (c : Char) : Bool := c = ' ' || c = '\t'

/-- Blanks, which may be missing. -/
def blanks : Reading Unit := do let _ ← run isBlank

def newline : Reading Unit := char '\n' <|> literal "\r\n"

/-- The characters that any string and any comment may hold: no controls but the tab. -/
def isText (c : Char) : Bool := c = '\t' || (0x20 ≤ c.toNat && c.toNat ≠ 0x7F)

/-- A comment, up to the end of its line. -/
def comment : Reading Unit := do
  char '#'
  let _ ← run isText

/-! ### Escapes -/

/-- The number that hexadecimal digits stand for. -/
def hexValue (ds : List Char) : Nat :=
  ds.foldl (fun n d =>
    16 * n + if d.isDigit then d.toNat - '0'.toNat else d.toLower.toNat - 'a'.toNat + 10) 0

def isHexDigit (c : Char) : Bool :=
  c.isDigit || ('a' ≤ c && c ≤ 'f') || ('A' ≤ c && c ≤ 'F')

/-- The character whose code point is written with `n` hexadecimal digits. -/
def codePoint (n : Nat) : Reading Char := do
  let value := hexValue (← times n (satisfy isHexDigit))
  if value.isValidChar then return Char.ofNat value else failure

/-- A character written with a backslash. -/
def escaped : Reading Char := do
  char '\\'
  let c ← satisfy fun _ => true
  match c with
  | 'b' => return '\x08'
  | 't' => return '\t'
  | 'n' => return '\n'
  | 'f' => return '\x0c'
  | 'r' => return '\r'
  | '"' => return '"'
  | '\\' => return '\\'
  | 'u' => codePoint 4
  | 'U' => codePoint 8
  | _ => failure

/-! ### Strings on one line -/

def basicString : Reading String := do
  char '"'
  let cs ← many (satisfy (fun c => isText c && c ≠ '"' && c ≠ '\\') <|> escaped)
  char '"'
  return String.ofList cs

/-- A string without escapes. -/
def literalString : Reading String := do
  char '\''
  let cs ← run fun c => isText c && c ≠ '\''
  char '\''
  return String.ofList cs

/-! ### Strings on several lines -/

/-- A line end inside a string is always a line feed. -/
def innerNewline : Reading (List Char) := do
  newline
  return ['\n']

/-- A backslash at the end of a line takes the line end away, and the blanks and empty lines after
it. -/
def joinedLines : Reading (List Char) := do
  char '\\'
  blanks
  newline
  let _ ← many (newline <|> (do let _ ← satisfy isBlank))
  return []

/-- One or two quotes, not part of a longer run. -/
def fewQuotes (quote : Char) : Reading (List Char) := do
  let quotes ← run (· = quote)
  if 0 < quotes.length && quotes.length < 3 then return quotes else failure

def threeQuotes (quote : Char) : Reading Unit := do
  let _ ← times 3 (char quote)

/-- The closing quotes; one or two more right before them belong to the string. -/
def closingQuotes (quote : Char) : Reading (List Char) := do
  threeQuotes quote
  let more ← maybe (char quote)
  let most ← maybe (char quote)
  return (more.toList ++ most.toList).map fun _ => quote

/-- A string between triple quotes, made of the given pieces; a line end right after the opening
quotes does not belong to it. -/
def multiline (quote : Char) (piece : Reading (List Char)) : Reading String := do
  threeQuotes quote
  let _ ← maybe newline
  let pieces ← many (piece <|> innerNewline <|> fewQuotes quote)
  return String.ofList (pieces.flatten ++ (← closingQuotes quote))

/-- A quoted string on several lines. -/
def multilineBasic : Reading String :=
  multiline '"' <|
    (do return [← satisfy fun c => isText c && c ≠ '"' && c ≠ '\\']) <|> joinedLines <|>
      (do return [← escaped])

/-- A string without escapes on several lines. -/
def multilineLiteral : Reading String :=
  multiline '\'' (do return [← satisfy fun c => isText c && c ≠ '\''])

/-- Any string. What opens with three quotes is never the empty string on one line. -/
def string : Reading String := do
  let opening ← Reading.peek 3
  if opening = ['"', '"', '"'] then multilineBasic
  else if opening = ['\'', '\'', '\''] then multilineLiteral
  else basicString <|> literalString

end VarBlock.Toml
