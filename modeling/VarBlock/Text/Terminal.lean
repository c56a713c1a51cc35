/-!
# Text without terminal control sequences

    text ──shown──▶ the characters that a terminal would show

Some characters are no text to a terminal but tell it what to do: controls, and sequences that start
with an escape character. `withoutControlSequences` leaves those out. A tab or line end within a
sequence is still carried out, unless the sequence is a string; what follows it is text again.
-/

namespace VarBlock.Text

/-- What a terminal is in the middle of. -/
inductive TerminalState
  /-- Showing text. -/
  | ground
  /-- An escape sequence after its first character. -/
  | escape
  /-- An escape sequence after an intermediate character. -/
  | escapeIntermediate
  /-- A control sequence after its opening bracket. -/
  | csiEntry
  /-- A control sequence after a parameter. -/
  | csiParam
  /-- A control sequence after an intermediate character. -/
  | csiIntermediate
  /-- A control sequence that is malformed, up to its final character. -/
  | csiIgnore
  /-- A device control string after its opening letter. -/
  | dcsEntry
  /-- A device control string after a parameter. -/
  | dcsParam
  /-- A device control string after an intermediate character. -/
  | dcsIntermediate
  /-- A device control string that is malformed, up to its end. -/
  | dcsIgnore
  /-- A device control string after its final character, up to its end. -/
  | dcsPassthrough
  /-- An operating system command. -/
  | oscString
  /-- A string of another kind. -/
  | controlString
deriving DecidableEq, Repr

/-- Whether the code point of a character lies between two bounds. -/
def isBetween (least greatest : Nat) (c : Char) : Bool := least ≤ c.toNat && c.toNat ≤ greatest

/-- Whether a character ends a string: one of its bytes is the string terminator. -/
def endsString (c : Char) : Bool := (String.utf8EncodeChar c).contains 0x9C

/-- Whether a character is white space of ASCII other than the blank: a tab, or the end of a line or
page. -/
def isLayout (c : Char) : Bool := c = '\t' || c = '\n' || c = '\x0c' || c = '\r'

/-- Whether a character is shown where no sequence is under way. -/
def isShown (c : Char) : Bool := isBetween 0x20 0x7E c || isLayout c || 0x80 ≤ c.toNat

namespace TerminalState

/-- Where a character leads that neither starts an escape sequence nor stops what is under way. -/
def next (s : TerminalState) (c : Char) : TerminalState :=
  let isIntermediate := isBetween 0x20 0x2F c
  let isParameter := isBetween 0x30 0x3B c
  let isPrivate := isBetween 0x3C 0x3F c
  let isFinal := isBetween 0x40 0x7E c
  match s with
  | ground => ground
  | escape =>
    if isIntermediate then escapeIntermediate
    else if c = '[' then csiEntry
    else if c = ']' then oscString
    else if c = 'P' then dcsEntry
    else if c = 'X' || c = '^' || c = '_' then controlString
    else if isParameter || isPrivate || isFinal then ground
    else escape
  | escapeIntermediate => if isParameter || isPrivate || isFinal then ground else escapeIntermediate
  | csiEntry =>
    if isIntermediate then csiIntermediate
    else if isParameter || isPrivate then csiParam
    else if isFinal then ground
    else csiEntry
  | csiParam =>
    if isIntermediate then csiIntermediate
    else if isPrivate then csiIgnore
    else if isFinal then ground
    else csiParam
  | csiIntermediate =>
    if isParameter || isPrivate then csiIgnore
    else if isFinal then ground
    else csiIntermediate
  | csiIgnore => if isFinal then ground else csiIgnore
  | dcsEntry =>
    if isIntermediate then dcsIntermediate
    else if isParameter || isPrivate then dcsParam
    else if isFinal then dcsPassthrough
    else dcsEntry
  | dcsParam =>
    if isIntermediate then dcsIntermediate
    else if isPrivate then dcsIgnore
    else if isFinal then dcsPassthrough
    else dcsParam
  | dcsIntermediate =>
    if isParameter || isPrivate then dcsIgnore
    else if isFinal then dcsPassthrough
    else dcsIntermediate
  | dcsIgnore => if endsString c then ground else dcsIgnore
  | dcsPassthrough => if endsString c then ground else dcsPassthrough
  | oscString => if c = '\x07' then ground else oscString
  | controlString => if endsString c then ground else controlString

/-- Where a character leads. Two controls stop whatever is under way, and an escape character starts
a new sequence in the midst of another. -/
def step (s : TerminalState) (c : Char) : TerminalState :=
  if c = '\x18' || c = '\x1a' then ground
  else if c = '\x1b' then escape
  else s.next c

/-- Whether tabs and line ends are carried out in the midst of a sequence: not in strings. -/
def carriesOutLayout : TerminalState → Bool
  | escape | escapeIntermediate | csiEntry | csiParam | csiIntermediate | csiIgnore => true
  | _ => false

/-- The characters of a text that are shown. Once one is shown, the text after it is shown too, up
to the next control, which is again taken in the state that the last control or sequence has led
to. -/
def shown (s : TerminalState) (isShowing : Bool) : List Char → List Char
  | [] => []
  | c :: cs =>
    if isShowing && isShown c then c :: shown (if c.toNat < 0x80 then s else ground) true cs
    else if s = ground && isShown c || s.carriesOutLayout && isLayout c then c :: shown s true cs
    else shown (s.step c) false cs

end TerminalState

/-- A text without what a terminal would not show. -/
def withoutControlSequences (s : String) : String :=
  String.ofList (TerminalState.ground.shown false s.toList)

end VarBlock.Text
