import VarBlock.Decimal
import VarBlock.Text.Reading
import VarBlock.Toml.Text

/-!
# TOML: numbers

Integers in decimal, hexadecimal, octal or binary digits, within the signed 64-bit range, and
doubles. An underscore may stand between two digits.
-/

namespace VarBlock.Toml

open Text
open Text.Reading (satisfy char literal many maybe)

/-- Digits of a class, with single underscores between them. -/
def digits (isDigit : Char → Bool) : Reading (List Char) := do
  let d ← satisfy isDigit
  let ds ← many (satisfy isDigit <|> do char '_'; satisfy isDigit)
  return d :: ds

/-- Decimal digits without leading zeros. -/
def wholeDigits : Reading (List Char) := do
  match ← Reading.peek 1 with
  | ['0'] => do char '0'; return ['0']
  | _ => digits Char.isDigit

/-- A sign, which may be missing; whether it is a minus. -/
def sign : Reading Bool :=
  (do char '-'; return true) <|> (do char '+'; return false) <|> pure false

/-- The number that digits stand for in a base. -/
def digitsValue (base : Nat) (ds : List Char) : Nat :=
  ds.foldl (fun n d => base * n + hexValue [d]) 0

/-! ### Integers -/

/-- An integer that fits 64 bits. -/
def fitting (n : Int) : Reading Int :=
  if -0x8000000000000000 ≤ n && n ≤ 0x7FFFFFFFFFFFFFFF then pure n else failure

/-- An integer with a mark of its base in front. -/
def based (mark : String) (base : Nat) (isDigit : Char → Bool) : Reading Int := do
  literal mark
  fitting (digitsValue base (← digits isDigit))

def decimalInteger : Reading Int := do
  let negative ← sign
  let n := (digitsValue 10 (← wholeDigits) : Int)
  fitting (if negative then -n else n)

def integer : Reading Int :=
  based "0x" 16 isHexDigit <|> based "0o" 8 (fun c => '0' ≤ c && c ≤ '7') <|>
    based "0b" 2 (fun c => c = '0' || c = '1') <|> decimalInteger

/-! ### Floats -/

def fraction : Reading (List Char) := do
  char '.'
  digits Char.isDigit

def powerOfTen : Reading Int := do
  let _ ← satisfy fun c => c = 'e' || c = 'E'
  let negative ← sign
  let n := (digitsValue 10 (← digits Char.isDigit) : Int)
  return if negative then -n else n

/-- A fraction, a power of ten, or both. -/
def scale : Reading (List Char × Int) :=
  (do
    let ds ← fraction
    let power ← maybe powerOfTen
    return (ds, power.getD 0)) <|>
  (do return ([], ← powerOfTen))

/-- A finite double. One that is too large has no value unless it is negative. -/
def finiteFloat : Reading Float := do
  let negative ← sign
  let whole ← wholeDigits
  let (part, power) ← scale
  let d : Decimal := ⟨digitsValue 10 (whole ++ part), power - part.length⟩
  let x := d.toFloat
  if negative then return -x
  else if x.isInf then failure
  else return x

/-- Infinity and not-a-number by name. -/
def specialFloat : Reading Float := do
  let negative ← sign
  let x ← (do literal "inf"; return Float.ofBits 0x7FF0000000000000) <|>
    (do literal "nan"; return Float.ofBits 0x7FF8000000000000)
  return if negative then -x else x

def float : Reading Float := finiteFloat <|> specialFloat

end VarBlock.Toml
