import VarBlock.Toml.Number

/-!
# TOML: dates and times

A date, a time, or both with or without an offset from UTC. They are kept as text in one normal
form: a `T` between date and time, a `Z` for UTC, and no zeros at the end of a fraction of a second.
-/

namespace VarBlock.Toml

open Text
open Text.Reading (satisfy char times maybe)

/-- A number written with `n` digits that lies between two bounds. -/
def fixedNumber (n least greatest : Nat) : Reading Nat := do
  let value := digitsValue 10 (← times n (satisfy Char.isDigit))
  if least ≤ value && value ≤ greatest then return value else failure

/-- A number with zeros in front, `n` digits in all. -/
def padded (n value : Nat) : List Char :=
  let ds := Nat.toDigits 10 value
  List.replicate (n - ds.length) '0' ++ ds

/-- Every fourth year is a leap year, but of the hundredth years only every fourth. -/
def isLeapYear (year : Nat) : Bool := year % 4 = 0 && (year % 100 ≠ 0 || year % 400 = 0)

def daysInMonth (year month : Nat) : Nat :=
  if month = 2 then if isLeapYear year then 29 else 28
  else if month ∈ [4, 6, 9, 11] then 30
  else 31

/-- A date that exists. -/
def date : Reading (List Char) := do
  let year ← fixedNumber 4 0 9999
  char '-'
  let month ← fixedNumber 2 1 12
  char '-'
  let day ← fixedNumber 2 1 (daysInMonth year month)
  return padded 4 year ++ ['-'] ++ padded 2 month ++ ['-'] ++ padded 2 day

/-- The fraction of a second: nine places count, and zeros at the end are not written. -/
def secondFraction : Reading (List Char) := do
  char '.'
  let places := (← Reading.run1 Char.isDigit).take 9
  let kept := (places.reverse.dropWhile (· = '0')).reverse
  return if kept.isEmpty then [] else '.' :: kept

/-- A time of day; a minute may have a leap second. -/
def time : Reading (List Char) := do
  let hour ← fixedNumber 2 0 23
  char ':'
  let minute ← fixedNumber 2 0 59
  char ':'
  let second ← fixedNumber 2 0 60
  let fraction ← maybe secondFraction
  return padded 2 hour ++ [':'] ++ padded 2 minute ++ [':'] ++ padded 2 second ++ fraction.getD []

/-- An offset from UTC; none at all has a plus sign. -/
def offset : Reading (List Char) :=
  (do let _ ← satisfy fun c => c = 'Z' || c = 'z'; return ['Z']) <|>
  (do
    let mark ← satisfy fun c => c = '+' || c = '-'
    let hour ← fixedNumber 2 0 23
    char ':'
    let minute ← fixedNumber 2 0 59
    let mark := if hour = 0 && minute = 0 then '+' else mark
    return mark :: padded 2 hour ++ [':'] ++ padded 2 minute)

/-- The time after a date. -/
def timeOfDate : Reading (List Char) := do
  let _ ← satisfy fun c => c = 'T' || c = 't' || c = ' '
  let clock ← time
  let zone ← maybe offset
  return 'T' :: clock ++ zone.getD []

/-- A date, a date with a time, or a time. -/
def dateTime : Reading String :=
  (do
    let day ← date
    let clock ← maybe timeOfDate
    return String.ofList (day ++ clock.getD [])) <|>
  (do return String.ofList (← time))

end VarBlock.Toml
