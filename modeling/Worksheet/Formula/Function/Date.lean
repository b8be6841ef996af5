import Worksheet.Value.Coercion
import Worksheet.Calendar.IsoText
import Worksheet.Calendar.Moment

/-!
# Date functions

A date is a text such as `2024-03-15`, since a cell holds no other dates.  Arguments may also be ISO
texts of a date with a time, and serial numbers, which count days from 30 December 1899.
-/

namespace Worksheet.Formula

/-- Functions of dates. -/
inductive DateFunction where
  | today
  | now
  | date
  | year
  | month
  | day
  | endOfMonth
deriving DecidableEq, Inhabited

namespace DateFunction

/-- The name of a function. -/
def name : DateFunction → String
  | today => "TODAY"
  | now => "NOW"
  | date => "DATE"
  | year => "YEAR"
  | month => "MONTH"
  | day => "DAY"
  | endOfMonth => "EOMONTH"

/-- The number of arguments of a function. -/
def arity : DateFunction → Arity
  | today | now => .nothing
  | date => .exactly 3 "year, month, day"
  | endOfMonth => .exactly 2 "start_date, months"
  | _ => .exactly 1 ""

/-- The day with the serial number zero, in the row of all days. -/
def serialOrigin : Int := 693594

/-- The date that a serial number stands for. -/
def ofSerial (f : DateFunction) (serial : Int) : Except Failure Date := do
  match if serial < 1 then none else Date.ofOrdinal? (serialOrigin + serial) with
  | some d => return d
  | none => throw (.serialOutOfRange f.name (← Number.intText serial))

/-- The date that a text stands for. -/
def ofText (f : DateFunction) (s : String) : Except Failure Date :=
  match IsoText.read? (Text.trimBlanks s.toList) with
  | some d => .ok d
  | none => .error (.notADate f.name (Text.quoted s))

/-- An argument that is a date. -/
def dateArgument (f : DateFunction) : Scalar → Except Failure Date
  | .number n => do f.ofSerial (← n.truncate)
  | .bool b => .error (.notADate f.name (if b then "True" else "False"))
  | .text s => f.ofText s
  | .cellText s => f.ofText s

/-- A number without its fraction. -/
def wholeArgument (strict : Bool) (f : DateFunction) (s : Scalar) : Except Failure Int := do
  (← s.asNumber strict (some f.name)).truncate

/-- Refuses a part of a date that does not fit 32 bits. -/
def checkPart (n : Int) : Except Failure Unit :=
  if n < -0x8000000000000000 || 0x8000000000000000 ≤ n then .error .datePartTooLong
  else if n < -0x80000000 then .error .datePartTooSmall
  else if 0x80000000 ≤ n then .error .datePartTooGreat
  else .ok ()

/-- The date with the given parts. -/
def ofParts (year month day : Int) : Except Failure Date := do
  checkPart year
  checkPart month
  checkPart day
  match Date.ofParts (toString year) year month day with
  | .ok d => return d
  | .error fault => throw (.noSuchDate fault)

/-- The last day of the month that lies some months after that of a date. -/
def endOfMonthAfter (d : Date) (months : Int) : Except Failure Date := do
  let total : Int := d.year * 12 + (d.month - 1) + months
  let year := Int.fdiv total 12
  match Date.endOfMonth? year (Int.fmod total 12 + 1) with
  | some last => return last
  | none => throw (.monthEndOutOfRange (← Number.intText year))

/-- What the clock shows in universal time. -/
def universal (clock : Moment) : Except Failure Moment :=
  match clock.toUniversal? with
  | some m => .ok m
  | none => .error .momentOutOfRange

/-- The value of a function at scalars, with a clock for those that ask for the time. -/
def apply (strict : Bool) (clock : Moment) (f : DateFunction) (args : List Scalar) :
    Except Failure Scalar := do
  if !f.arity.accepts args.length then throw (.wrongArgumentCount f.name f.arity)
  match f, args with
  | today, [] => return .text (← universal clock).date.iso
  | now, [] => return .text (← universal clock).stamp
  | date, [y, m, d] => do
    let year ← wholeArgument strict f y
    let month ← wholeArgument strict f m
    let day ← wholeArgument strict f d
    return .text (← ofParts year month day).iso
  | year, [s] => return .number (.int (← f.dateArgument s).year)
  | month, [s] => return .number (.int (← f.dateArgument s).month)
  | day, [s] => return .number (.int (← f.dateArgument s).day)
  | endOfMonth, [s, months] => do
    let start ← f.dateArgument s
    let months ← wholeArgument strict f months
    return .text (← endOfMonthAfter start months).iso
  | f, _ => throw (.wrongArgumentCount f.name f.arity)

end DateFunction

end Worksheet.Formula
