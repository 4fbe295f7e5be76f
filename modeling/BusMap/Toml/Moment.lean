import BusMap.Toml.Number

/-!
# Dates and times

A moment is a date, a time of day, or both, and then possibly with an offset from universal time.
The day must exist in its month and year.
-/

set_option autoImplicit false

namespace BusMap.Toml

open Reader

/-- A number of `n` digits within bounds. -/
def boundedDigits (n lo hi : Nat) : Reader Nat := do
  let digits ← takeExactly Char.isDigit n
  let value := valueOf 10 digits
  guard (lo ≤ value ∧ value ≤ hi)
  return value

/-- The year has a 29th of February. -/
def isLeapYear (year : Nat) : Bool := year % 4 == 0 && (year % 100 != 0 || year % 400 == 0)

/-- Days of a month. -/
def daysInMonth (year month : Nat) : Nat :=
  if month = 2 then if isLeapYear year then 29 else 28
  else if month = 4 ∨ month = 6 ∨ month = 9 ∨ month = 11 then 30
  else 31

/-- A date such as `1979-05-27`. -/
def date : Reader Unit := do
  let year ← boundedDigits 4 0 9999
  char '-'
  let month ← boundedDigits 2 1 12
  char '-'
  skip (boundedDigits 2 1 (daysInMonth year month))

/-- A time of day such as `07:32:00.5`; a minute may have a leap second. -/
def timeOfDay : Reader Unit := do
  skip (boundedDigits 2 0 23)
  char ':'
  skip (boundedDigits 2 0 59)
  char ':'
  skip (boundedDigits 2 0 60)
  skip (optional (char '.' *> takeSome Char.isDigit))

/-- An offset from universal time. -/
def offset : Reader Unit :=
  skip (satisfy fun c => c == 'Z' || c == 'z') <|>
    satisfy (fun c => c == '+' || c == '-') *> boundedDigits 2 0 23 *> char ':' *>
      skip (boundedDigits 2 0 59)

/-- The time of a date, after its mark. -/
def timeOfDate : Reader Unit := do
  skip (satisfy fun c => c == 'T' || c == 't' || c == ' ')
  timeOfDay
  skip (optional offset)

/-- A date, a time of day, or both, as its text. -/
def moment : Reader String := textOf (date *> skip (optional timeOfDate) <|> timeOfDay)

end BusMap.Toml
