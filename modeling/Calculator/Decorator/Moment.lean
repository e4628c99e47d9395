import Calculator.Number.Shortest

/-!
# Date and time

Seconds since the start of 1970 as a date and a time of UTC, for the years from 1 to 9999.
-/

namespace Calculator.Moment

/-- The start of year 1 and the end of year 9999. -/
def first : Int := -62135596800

def last : Int := 253402300799

def secondsOfDay : Nat := 86400

/-- Year, month and day, for days counted from the first of March of year zero. -/
def civil (day : Nat) : Nat × Nat × Nat :=
  let era := day / 146097
  let dayOfEra := day % 146097
  let yearOfEra := (dayOfEra - dayOfEra / 1460 + dayOfEra / 36524 - dayOfEra / 146096) / 365
  let dayOfYear := dayOfEra - (365 * yearOfEra + yearOfEra / 4 - yearOfEra / 100)
  let month := (5 * dayOfYear + 2) / 153
  let dayOfMonth := dayOfYear - (153 * month + 2) / 5 + 1
  let year := era * 400 + yearOfEra
  if month < 10 then (year, month + 3, dayOfMonth) else (year + 1, month - 9, dayOfMonth)

def twoDigits (n : Nat) : String :=
  let ds := Number.decimalDigits n
  String.ofList (if ds.length < 2 then '0' :: ds else ds)

/-- Days from the first of March of year zero to the start of year 1. -/
def daysBefore : Nat := 306

/-- The year has no zeros in front. -/
def text? (seconds : Int) : Option String :=
  if seconds < first ∨ last < seconds then none
  else
    let passed := (seconds - first).toNat
    let (year, month, day) := civil (passed / secondsOfDay + daysBefore)
    let second := passed % secondsOfDay
    some (s!"{year}-{twoDigits month}-{twoDigits day} " ++
      s!"{twoDigits (second / 3600)}:{twoDigits (second / 60 % 60)}:{twoDigits (second % 60)}")

end Calculator.Moment
