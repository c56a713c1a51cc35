/-!
# Tokens of a declaration block

The eight kinds of token and the token itself: a kind, the text it was read from, and where that
text starts. Offsets and lengths count characters.

A kind is decided by the text alone: `TokenKind.ofWord` for a word, `TokenKind.ofSymbol` for a
single character that starts no word.
-/

namespace VarBlock

/-- What a token is. -/
inductive TokenKind
  | keyword
  | type
  | identifier
  | delimiter
  | colon
  | semicolon
  | digit
  | unknown
deriving DecidableEq, Repr

namespace TokenKind

/-- The name of a kind in messages and listings. -/
def name : TokenKind → String
  | keyword => "Keyword"
  | type => "Type"
  | identifier => "Identifier"
  | delimiter => "Delimiter"
  | colon => "Colon"
  | semicolon => "Semicolon"
  | digit => "Digit"
  | unknown => "Unknown"

/-- The word that opens a declaration block. -/
def varWord : String := "var"

/-- The words that name a type. -/
def typeWords : List String := ["integer", "real", "boolean", "char"]

/-- The kind of a word: a reserved word has a kind of its own, any other is an identifier. -/
def ofWord (word : String) : TokenKind :=
  if word = varWord then keyword
  else if word ∈ typeWords then type
  else identifier

/-- The kind of a character that neither separates tokens nor starts a word. -/
def ofSymbol (c : Char) : TokenKind :=
  if c = ',' then delimiter
  else if c = ':' then colon
  else if c = ';' then semicolon
  else if c.isDigit then digit
  else unknown

end TokenKind

/-- The characters from `start` up to but not including `stop`. -/
structure Span where
  start : Nat
  stop : Nat
deriving DecidableEq, Repr

/-- A lexeme with its kind and the number of characters before it. -/
structure Token where
  kind : TokenKind
  text : String
  offset : Nat
deriving DecidableEq, Repr

namespace Token

/-- The offset just past the last character of a token. -/
def stop (t : Token) : Nat := t.offset + t.text.length

/-- The characters a token covers. -/
def span (t : Token) : Span := ⟨t.offset, t.stop⟩

end Token

end VarBlock
