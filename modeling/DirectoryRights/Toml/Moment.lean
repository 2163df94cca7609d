import DirectoryRights.Text.Scan

/-!
# Dates and times

A moment is a date, a time, or a date and a time with an optional offset. Its parts have to be in
range: a month has its number of days, February has one more in leap years, and a minute may end in
a leap second.
-/

set_option autoImplicit false

namespace DirectoryRights.Toml.Moment

open Text

/-- A number of exactly so many digits. -/
def fixed (width : Nat) : Scan Nat := do
  let ds ← Scan.count (Scan.one Char.isDigit) width
  return ds.foldl (fun n c => 10 * n + (c.toNat - '0'.toNat)) 0

/-- A number of two digits in a range. -/
def within (low high : Nat) : Scan Nat :=
  Scan.check (fixed 2) fun n => low ≤ n ∧ n ≤ high

/-- Whether a year has a leap day. -/
def isLeap (year : Nat) : Bool :=
  year % 4 = 0 && (year % 100 ≠ 0 || year % 400 = 0)

/-- The number of days of a month. -/
def daysIn (year month : Nat) : Nat :=
  if month = 2 then if isLeap year then 29 else 28
  else if month = 4 ∨ month = 6 ∨ month = 9 ∨ month = 11 then 30
  else 31

/-- A date. -/
def date : Scan Unit := do
  let year ← fixed 4
  let _ ← Scan.char '-'
  let month ← within 1 12
  let _ ← Scan.char '-'
  let _ ← within 1 (daysIn year month)

/-- A time of day. -/
def time : Scan Unit := do
  let _ ← within 0 23
  let _ ← Scan.char ':'
  let _ ← within 0 59
  let _ ← Scan.char ':'
  let _ ← within 0 60
  let _ ← Scan.maybe (do
    let _ ← Scan.char '.'
    Scan.atLeastOne (Scan.one Char.isDigit))

/-- The distance from universal time. -/
def offset : Scan Unit := do
  let mark ← Scan.one fun c => c = 'Z' || c = 'z' || c = '+' || c = '-'
  if mark = '+' ∨ mark = '-' then
    let _ ← within 0 23
    let _ ← Scan.char ':'
    let _ ← within 0 59

/-- A time of day after a date. -/
def timeAfterDate : Scan Unit := do
  let _ ← Scan.one fun c => c = 'T' || c = 't' || c = ' '
  time
  let _ ← Scan.maybe offset

/-- A moment, as it is written. -/
def moment : Scan String := do
  let written ← Scan.taken ((do date; let _ ← Scan.maybe timeAfterDate) <|> time)
  return String.ofList written

end DirectoryRights.Toml.Moment
