/-!
# Decimal text of floating-point numbers

A double is a natural number times a power of two, and every real that rounds to it lies in an
interval around it. `Decimal.shortest` takes the coarsest decimal grid with a point in that
interval, and of the points on it the one nearest to the number, of two equally near the greater.
The result is written without an exponent, and reads back as the same double.
-/

namespace VarBlock

/-- The number `digits * 10 ^ exponent`. -/
structure Decimal where
  digits : Nat
  exponent : Int
deriving DecidableEq, Repr

/-- The positive number `significand * 2 ^ exponent` as a double. -/
structure Binary where
  significand : Nat
  exponent : Int
  /-- Whether the double below is half as far away as the one above. -/
  narrowBelow : Bool
deriving DecidableEq, Repr

/-- The leading bit of a significand, which the bits of a double leave out: 2 to the power 52. -/
def Binary.hiddenBit : Nat := 0x10000000000000

/-- The magnitude that the bits of a finite double stand for. -/
def Binary.ofBits (bits : UInt64) : Binary :=
  let biased : Nat := bits.toNat / hiddenBit % 2048
  let fraction : Nat := bits.toNat % hiddenBit
  if biased = 0 then ⟨fraction, -1074, false⟩
  else ⟨hiddenBit + fraction, (biased : Int) - 1075, fraction = 0 && biased > 1⟩

namespace Decimal

/-- The point nearest to `x` on the grid of the multiples of `10 ^ k`, if a point of the grid
rounds to `x`. All sides are brought to one scale, on which the grid has the given width. -/
def onGrid? (x : Binary) (k : Int) : Option Decimal :=
  let quarter := x.exponent - 2
  let width := Nat.pow 10 k.toNat * Nat.pow 2 (-quarter).toNat
  let unit := Nat.pow 2 quarter.toNat * Nat.pow 10 (-k).toNat
  let value := 4 * x.significand * unit
  let least := (4 * x.significand - if x.narrowBelow then 1 else 2) * unit
  let greatest := (4 * x.significand + 2) * unit
  let roundsBack (c : Nat) : Bool :=
    let point := c * width
    if x.significand % 2 = 0 then least ≤ point && point ≤ greatest
    else least < point && point < greatest
  let below := value / width
  let above := below + 1
  let aboveIsNearer := above * width - value ≤ value - below * width
  match roundsBack below, roundsBack above with
  | false, false => none
  | true, false => some ⟨below, k⟩
  | false, true => some ⟨above, k⟩
  | true, true => some ⟨if aboveIsNearer then above else below, k⟩

/-- The powers of ten of the grids, from the coarsest to one finer than every interval. -/
def gridExponents : List Int := (List.range 634).map fun (i : Nat) => 309 - (i : Int)

/-- The decimal with the fewest digits that rounds to `x`. -/
def shortest (x : Binary) : Decimal := (gridExponents.findSome? (onGrid? x)).getD ⟨0, 0⟩

/-- A decimal without an exponent: zeros before or after the digits stand for it, and no point is
written after a whole number. -/
def positional (d : Decimal) : List Char :=
  let digits := Nat.toDigits 10 d.digits
  match d.exponent with
  | .ofNat zeros => digits ++ List.replicate zeros '0'
  | .negSucc n =>
    let places := n + 1
    let padded := List.replicate (places + 1 - digits.length) '0' ++ digits
    padded.take (padded.length - places) ++ '.' :: padded.drop (padded.length - places)

/-- The double nearest to a decimal; one far out of range is not computed. -/
def toFloat (d : Decimal) : Float :=
  let size := d.exponent + (Nat.toDigits 10 d.digits).length
  if d.digits = 0 || size < -400 then 0.0
  else if size > 400 then Float.ofBits 0x7FF0000000000000
  else Float.ofScientific d.digits (d.exponent < 0) d.exponent.natAbs

end Decimal

/-- The text of a double: its sign, also that of zero, and its shortest digits. -/
def floatText (x : Float) : String :=
  if x.isNaN then "NaN"
  else
    let sign := if x.toBits.toNat < 0x8000000000000000 then "" else "-"
    if x.isInf then sign ++ "inf"
    else if x == 0.0 then sign ++ "0"
    else sign ++ String.ofList (Decimal.shortest (.ofBits x.toBits)).positional

end VarBlock
