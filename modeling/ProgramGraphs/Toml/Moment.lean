import ProgramGraphs.Toml.Scan

/-!
# Dates and times of TOML documents

A moment is a date, a time of day, or both; a date with a time may have an offset.  The
parts of a moment have fixed numbers of digits and must be in range, and a day must be one
of its month.
-/

namespace ProgramGraphs.Toml.Moment

open Scan (char satisfy attempt takeWhile)

/-- Takes a number of exactly so many digits. -/
def number : Nat → Nat → Scan Nat
  | 0, value => pure value
  | count + 1, value => do
    let digit ← satisfy Char.isDigit
    number count (value * 10 + (digit.toNat - '0'.toNat))

/-- Takes two digits whose number lies between bounds. -/
def twoDigits (low high : Nat) : Scan Nat := do
  let value ← number 2 0
  if low ≤ value ∧ value ≤ high then return value else failure

/-- Whether a year has a leap day. -/
def isLeap (year : Nat) : Bool := year % 4 == 0 && (year % 100 != 0 || year % 400 == 0)

/-- The number of days of a month. -/
def daysOf (year month : Nat) : Nat :=
  match month with
  | 2 => if isLeap year then 29 else 28
  | 4 | 6 | 9 | 11 => 30
  | _ => 31

/-- Takes a date. -/
def date : Scan Unit := do
  let year ← number 4 0
  char '-'
  let month ← twoDigits 1 12
  char '-'
  let _ ← twoDigits 1 (daysOf year month)

/-- Takes a time of day; the sixtieth second is a leap second. -/
def time : Scan Unit := do
  let _ ← twoDigits 0 23
  char ':'
  let _ ← twoDigits 0 59
  char ':'
  let _ ← twoDigits 0 60
  let _ ← attempt (do
    char '.'
    let _ ← satisfy Char.isDigit
    takeWhile Char.isDigit)

/-- Takes an offset from the standard time. -/
def offset : Scan Unit := do
  let mark ← satisfy fun c => c == 'Z' || c == 'z' || c == '+' || c == '-'
  if mark == '+' || mark == '-' then
    let _ ← twoDigits 0 23
    char ':'
    let _ ← twoDigits 0 59

/-- Takes a moment. -/
def any : Scan Unit :=
  (do
    date
    let _ ← attempt (do
      let _ ← satisfy fun c => c == 'T' || c == 't' || c == ' '
      time
      attempt offset)) <|> time

end ProgramGraphs.Toml.Moment
