/-!
# Sources

A source is bytes from a file or from standard input, and has to be UTF-8 text. `ReadError` says
why it cannot be had.
-/

namespace VarBlock

/-- Why a source cannot be read. -/
inductive ReadError
  | missing
  | isDirectory
  /-- The path goes on after a file that is no directory. -/
  | notDirectory
  /-- A name in the path has more than 255 bytes, or the path more than 4095. -/
  | nameTooLong
  | notUtf8
deriving DecidableEq, Repr

def ReadError.message : ReadError → String
  | missing => "No such file or directory (os error 2)"
  | isDirectory => "Is a directory (os error 21)"
  | notDirectory => "Not a directory (os error 20)"
  | nameTooLong => "File name too long (os error 36)"
  | notUtf8 => "stream did not contain valid UTF-8"

/-- The text that the bytes encode. -/
def decodeText (bytes : ByteArray) : Except ReadError String :=
  match String.fromUTF8? bytes with
  | some s => .ok s
  | none => .error .notUtf8

end VarBlock
