import VarBlock.Token.Lexer

/-!
# Patterns of tokens

    source (String) ──rules──▶ matches (List Match) ──locate──▶ tokens (List Token)

What the tokens of a text are can also be said by a table of patterns: at every place the longest
match counts, and of the longest ones that of the rule with the highest priority. A match is found
at places of the source that count bytes, as its characters are stored; `Token.locate` counts the
characters.
-/

namespace VarBlock

/-- What the characters of a match look like. -/
inductive Pattern
  /-- Just this word. -/
  | literal (word : String)
  /-- One character of a class. -/
  | one (p : Char → Bool)
  /-- One character of a class, then any number of characters of another. -/
  | run (p q : Char → Bool)

/-- Whether a pattern describes all of the characters. -/
def Pattern.accepts : Pattern → List Char → Bool
  | literal word, cs => cs = word.toList
  | one p, [c] => p c
  | one _, _ => false
  | run p q, c :: cs => p c && cs.all q
  | run _ _, [] => false

/-- A pattern, and what its matches are. -/
structure Rule where
  pattern : Pattern
  /-- The kind of token, none if the match is dropped. -/
  kind : Option TokenKind
  /-- Of two equally long matches the one with the higher priority counts. -/
  priority : Nat

namespace Rule

/-- A word of its own. The longer the word, the higher the priority. -/
def literal (kind : TokenKind) (word : String) : Rule :=
  ⟨.literal word, some kind, 2 * word.length⟩

def blanks : Rule := ⟨.run isBlank isBlank, none, 1⟩

def name : Rule := ⟨.run Char.isAlpha Char.isAlphanum, some .identifier, 3⟩

def digit : Rule := ⟨.one Char.isDigit, some .digit, 3⟩

/-- Whatever is no blank. -/
def other : Rule := ⟨.one fun c => !isBlank c, some .unknown, 1⟩

/-- The rules by which a text is read. -/
def all : List Rule :=
  [blanks, literal .keyword TokenKind.varWord] ++ TokenKind.typeWords.map (literal .type) ++
    [name, literal .delimiter ",", literal .colon ":", literal .semicolon ";", digit, other]

end Rule

/-- A match that is a token, and the bytes it takes. -/
structure Match where
  kind : TokenKind
  start : String.Pos.Raw
  stop : String.Pos.Raw
deriving DecidableEq, Repr

/-- The tokens of the matches that follow in a source, of which the bytes up to `bytes` have been
passed. These are `chars` characters. -/
def Token.locate (source : String) (bytes : String.Pos.Raw) (chars : Nat) : List Match → List Token
  | [] => []
  | m :: ms =>
    let offset := chars + (bytes.extract source m.start).length
    let t : Token := ⟨m.kind, m.start.extract source m.stop, offset⟩
    t :: locate source m.stop t.stop ms

end VarBlock
