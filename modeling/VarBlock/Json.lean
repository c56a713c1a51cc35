/-!
# JSON

The values that reports are made of, with the fields of an object in order, and their layout: two
spaces of indentation, one element or field a line.
-/

namespace VarBlock

/-- A JSON value, as far as reports need one. -/
inductive Json
  | bool (b : Bool)
  | number (n : Nat)
  | string (s : String)
  | array (elements : List Json)
  | object (fields : List (String × Json))

namespace Json

/-- Four lower-case hexadecimal digits. -/
def fourHexDigits (n : Nat) : List Char :=
  [n / 4096 % 16, n / 256 % 16, n / 16 % 16, n % 16].map Nat.digitChar

/-- A character of a string. Quotes, backslashes and controls are escaped, all else stands for
itself. -/
def escapeChar (c : Char) : List Char :=
  if c = '"' then ['\\', '"']
  else if c = '\\' then ['\\', '\\']
  else if c = '\x08' then ['\\', 'b']
  else if c = '\x0c' then ['\\', 'f']
  else if c = '\n' then ['\\', 'n']
  else if c = '\r' then ['\\', 'r']
  else if c = '\t' then ['\\', 't']
  else if c.toNat < 0x20 then ['\\', 'u'] ++ fourHexDigits c.toNat
  else [c]

/-- A string between quotes. -/
def quoteChars (s : String) : List Char := '"' :: s.toList.flatMap escapeChar ++ ['"']

/-- A new line, indented by two spaces for each level. -/
def newline (level : Nat) : List Char := '\n' :: List.replicate (2 * level) ' '

mutual

/-- The text of a value whose first line stands at the given level. -/
def render (level : Nat) : Json → List Char
  | bool true => "true".toList
  | bool false => "false".toList
  | number n => Nat.toDigits 10 n
  | string s => quoteChars s
  | array [] => ['[', ']']
  | array (e :: es) =>
    '[' :: newline (level + 1) ++ render (level + 1) e ++ renderElements (level + 1) es ++
      newline level ++ [']']
  | object [] => ['\x7b', '\x7d']
  | object ((k, v) :: fs) =>
    '\x7b' :: newline (level + 1) ++ quoteChars k ++ [':', ' '] ++ render (level + 1) v ++
      renderFields (level + 1) fs ++ newline level ++ ['\x7d']

/-- The elements after the first one of an array, each on a line of its own. -/
def renderElements (level : Nat) : List Json → List Char
  | [] => []
  | e :: es => ',' :: newline level ++ render level e ++ renderElements level es

/-- The fields after the first one of an object, each on a line of its own. -/
def renderFields (level : Nat) : List (String × Json) → List Char
  | [] => []
  | (k, v) :: fs =>
    ',' :: newline level ++ quoteChars k ++ [':', ' '] ++ render level v ++
      renderFields level fs

end

/-- The text of a value. -/
def pretty (j : Json) : String := String.ofList (render 0 j)

end Json

end VarBlock
