import Worksheet.Failure
import Worksheet.Decimal.Layout

/-!
# Calendar dates

Dates of the Gregorian calendar from year 1 to year 9999.  Days are also counted in one row, the
first of January of year 1 being day 1.
-/

namespace Worksheet

/-- A leap year has a 29th of February. -/
def isLeapYear (year : Nat) : Bool :=
  year % 4 == 0 && (year % 100 != 0 || year % 400 == 0)

/-- The number of days of a month from 1 to 12. -/
def daysInMonth (year month : Nat) : Nat :=
  if month = 2 then (if isLeapYear year then 29 else 28)
  else if month = 4 || month = 6 || month = 9 || month = 11 then 30
  else 31

/-- A date that exists. -/
structure Date where
  year : Nat
  month : Nat
  day : Nat
  year_pos : 1 ≤ year
  year_le : year ≤ 9999
  month_pos : 1 ≤ month
  month_le : month ≤ 12
  day_pos : 1 ≤ day
  day_le : day ≤ daysInMonth year month
deriving DecidableEq

namespace Date

/-- The date with the given parts, or the first part that is out of range.  `shown` is the text of
the year in that case. -/
def ofParts (shown : String) (year month day : Int) : Except DateFault Date :=
  if hy : ¬(1 ≤ year ∧ year ≤ 9999) then .error (.year shown)
  else if hm : ¬(1 ≤ month ∧ month ≤ 12) then .error .month
  else if hd : ¬(1 ≤ day ∧ day ≤ daysInMonth year.toNat month.toNat) then .error .day
  else .ok ⟨year.toNat, month.toNat, day.toNat, by omega, by omega, by omega, by omega, by omega,
    by omega⟩

/-- The date with the given parts, if it exists. -/
def ofParts? (year month day : Int) : Option Date :=
  (ofParts "" year month day).toOption

/-- The last day of a month. -/
def endOfMonth? (year month : Int) : Option Date :=
  ofParts? year month (daysInMonth year.toNat month.toNat)

/-! ## Days in a row -/

/-- The number of days before a year. -/
def daysBeforeYear (year : Nat) : Nat :=
  let y := year - 1
  y * 365 + y / 4 - y / 100 + y / 400

/-- The number of days of a year before a month. -/
def daysBeforeMonth (year month : Nat) : Nat :=
  ((List.range' 1 (month - 1)).map (daysInMonth year)).foldl (· + ·) 0

/-- The number of a day in the row of all days. -/
def ordinal (d : Date) : Nat :=
  daysBeforeYear d.year + daysBeforeMonth d.year d.month + d.day

/-- The month and the day of the month of a day of the year, counted from zero, looking from `month`
on. -/
def monthOfDay (year : Nat) (day : Nat) : (months : Nat) → (month : Nat) → Nat × Nat
  | 0, month => (month, day + 1)
  | months + 1, month =>
    if day < daysInMonth year month then (month, day + 1)
    else monthOfDay year (day - daysInMonth year month) months (month + 1)

/-- The date of a day in the row of all days: 400 years have 146097 days, a hundred of them 36524 or
one more, four of them 1461 or one less, and one 365 or one more. -/
def ofOrdinal? (n : Int) : Option Date :=
  if n < 1 then none
  else
    let days := n.toNat - 1
    let fourHundreds := days / 146097
    let days := days % 146097
    let hundreds := min 3 (days / 36524)
    let days := days - hundreds * 36524
    let fours := days / 1461
    let days := days % 1461
    let ones := min 3 (days / 365)
    let days := days - ones * 365
    let year := 400 * fourHundreds + 100 * hundreds + 4 * fours + ones + 1
    let (month, day) := monthOfDay year days 12 1
    ofParts? year month day

/-- The day of the week of a day in the row of all days, Monday being zero. -/
def weekday (ordinal : Nat) : Nat :=
  (ordinal + 6) % 7

/-! ## Text -/

/-- A number with zeros in front up to a width. -/
def padded (width n : Nat) : List Char :=
  let digits := Decimal.digitChars n
  Decimal.zeros (width - digits.length) ++ digits

/-- The characters of a date as `YYYY-MM-DD`. -/
def isoChars (d : Date) : List Char :=
  padded 4 d.year ++ '-' :: (padded 2 d.month ++ '-' :: padded 2 d.day)

/-- The date as `YYYY-MM-DD`. -/
def iso (d : Date) : String :=
  String.ofList d.isoChars

end Date

end Worksheet
