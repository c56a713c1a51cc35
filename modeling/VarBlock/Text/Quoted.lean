import VarBlock.Text.DefaultIgnorable
import VarBlock.Text.GraphemeExtend
import VarBlock.Text.Ranges
import VarBlock.Text.Unprintable

/-!
# Quoted text

A text is quoted so that it stays on one line and shows each of its characters: between double
quotes, with a backslash before a quote or a backslash, a short escape for four controls, and the
code point in braces for any other character that has no image of its own.
-/

namespace VarBlock.Text

/-- The number in lower-case hexadecimal digits, without leading zeros. -/
def hexDigits (n : Nat) : List Char := Nat.toDigits 16 n

/-- Whether a character changes the look of the one before it. The halfwidth sound marks extend the
character before them too, but stand beside it like letters. -/
def altersPrevious (c : Char) : Bool :=
  inRanges graphemeExtendRanges c && c ≠ '\uff9e' && c ≠ '\uff9f'

/-- Whether a character is written by its code point: it alters the character before it, is not
shown, or has no image of its own. -/
def needsCodePoint (c : Char) : Bool :=
  altersPrevious c || inRanges defaultIgnorableRanges c || inRanges unprintableRanges c

/-- A character between quotes. -/
def escapeChar (c : Char) : List Char :=
  if c = '\x00' then ['\\', '0']
  else if c = '\t' then ['\\', 't']
  else if c = '\r' then ['\\', 'r']
  else if c = '\n' then ['\\', 'n']
  else if c = '"' then ['\\', '"']
  else if c = '\\' then ['\\', '\\']
  else if needsCodePoint c then ['\\', 'u', '\x7b'] ++ hexDigits c.toNat ++ ['\x7d']
  else [c]

/-- A text between double quotes. -/
def quoted (s : String) : String :=
  String.ofList ('"' :: s.toList.flatMap escapeChar ++ ['"'])

end VarBlock.Text
