import Worksheet.Calendar.Date
import Worksheet.Value.Basic

/-!
# Dates and times in YAML documents

A plain scalar can be a date, `YYYY-MM-DD`, or a date with a time of day and a distance from
universal time.  Its text is written anew from its parts, which have to make sense.
-/

namespace Worksheet.Yaml

/-- What dates and times can be put in order with: dates with dates, and times with those that have
a distance from universal time as well, or none either. -/
inductive TimeKind where
  | date
  | unzoned
  | zoned
deriving DecidableEq

/-- Why a date or a time does not exist. -/
inductive TimeFault where
  | date (fault : DateFault)
  | hour
  | minute
  | second
  /-- A distance from universal time of a day or more. -/
  | offset (shown : String)
deriving DecidableEq

/-- What is wrong with a date or a time. -/
def TimeFault.message : TimeFault → String
  | date fault => fault.message
  | hour => "hour must be in 0..23"
  | minute => "minute must be in 0..59"
  | second => "second must be in 0..59"
  | offset shown =>
    "offset must be a timedelta strictly between -timedelta(hours=24) and " ++
      "timedelta(hours=24), not " ++ shown ++ "."

/-- The parts of a date with or without a time, as they are written. -/
structure Timestamp where
  year : Nat
  month : Nat
  day : Nat
  /-- Hour, minute, second and microsecond. -/
  time : Option (Nat × Nat × Nat × Nat)
  /-- Minutes ahead of universal time. -/
  offset : Option Int

namespace Timestamp

/-! ## Reading -/

/-- From `least` to `most` decimal digits at the front of a text. -/
def digits? (least most : Nat) (cs : List Char) : Option (List Nat × List Char) :=
  let found := ((cs.take most).takeWhile Char.isDigit).map fun c => c.toNat - 48
  if found.length < least then none else some (found, cs.drop found.length)

/-- A number with from `least` to `most` digits at the front of a text. -/
def number? (least most : Nat) (cs : List Char) : Option (Nat × List Char) :=
  (digits? least most cs).map fun (ds, rest) => (Decimal.ofDigits ds, rest)

/-- A character at the front of a text. -/
def mark? (c : Char) : List Char → Option (List Char)
  | d :: cs => if d = c then some cs else none
  | [] => none

/-- Millionths from the digits of a fraction; further digits are left out. -/
def microseconds (ds : List Nat) : Nat :=
  Decimal.ofDigits ((ds ++ List.replicate 6 0).take 6)

/-- A distance from universal time that makes up a whole text, if there is one. -/
def offset? (cs : List Char) : Option (Option Int) :=
  match cs.dropWhile fun c => c == ' ' || c == '\t' with
  | [] => if cs.isEmpty then some none else none
  | ['Z'] => some (some 0)
  | sign :: rest =>
    if sign = '+' || sign = '-' then do
      let (hours, rest) ← number? 1 2 rest
      let minutes ← match rest with
        | [] => some 0
        | rest => do
          let (minutes, rest) ← number? 2 2 (← mark? ':' rest)
          if rest.isEmpty then some minutes else none
      let distance : Int := hours * 60 + minutes
      return some (if sign = '-' then -distance else distance)
    else none

/-- A time of day with what follows it. -/
def time? (cs : List Char) : Option ((Nat × Nat × Nat × Nat) × Option Int) := do
  let (hour, cs) ← number? 1 2 cs
  let (minute, cs) ← number? 2 2 (← mark? ':' cs)
  let (second, cs) ← number? 2 2 (← mark? ':' cs)
  let (fraction, cs) ← match cs with
    | '.' :: cs => digits? 0 cs.length cs
    | cs => some ([], cs)
  return ((hour, minute, second, microseconds fraction), ← offset? cs)

/-- The date or time that a text is written as. -/
def ofText? (cs : List Char) : Option Timestamp := do
  let (year, cs) ← number? 4 4 cs
  let (month, cs) ← digits? 1 2 (← mark? '-' cs)
  let (day, cs) ← digits? 1 2 (← mark? '-' cs)
  let date := fun time offset =>
    (⟨year, Decimal.ofDigits month, Decimal.ofDigits day, time, offset⟩ : Timestamp)
  match cs with
  | [] => if month.length = 2 && day.length = 2 then some (date none none) else none
  | c :: rest =>
    if c = 'T' || c = 't' || c = ' ' || c = '\t' then do
      let rest :=
        if c = 'T' || c = 't' then rest else rest.dropWhile fun c => c == ' ' || c == '\t'
      let (time, offset) ← time? rest
      return date (some time) offset
    else none

/-! ## Order -/

/-- What a date or time can be put in order with. -/
def kind (t : Timestamp) : TimeKind :=
  match t.time, t.offset with
  | none, _ => .date
  | some _, none => .unzoned
  | some _, some _ => .zoned

/-- The microseconds up to a date or time, in universal time if its distance from that is told. -/
def position (t : Timestamp) : Int :=
  let day := Date.daysBeforeYear t.year + Date.daysBeforeMonth t.year t.month + t.day
  let (hour, minute, second, microsecond) := t.time.getD (0, 0, 0, 0)
  let minutes : Int := (day * 24 + hour) * 60 + minute
  ((minutes - t.offset.getD 0) * 60 + second) * 1000000 + microsecond

/-! ## Writing -/

/-- A number of minutes as a length of time, by days and by seconds within a day. -/
def lengthText (minutes : Int) : String :=
  let days := Int.fdiv minutes 1440
  let seconds := Int.fmod minutes 1440 * 60
  let parts := (if days = 0 then [] else ["days=" ++ toString days]) ++
    (if seconds = 0 then [] else ["seconds=" ++ toString seconds])
  "datetime.timedelta(" ++ (if parts.isEmpty then "0" else ", ".intercalate parts) ++ ")"

/-- A distance from universal time as `+hh:mm`. -/
def offsetText (minutes : Int) : List Char :=
  (if minutes < 0 then '-' else '+') ::
    (Date.padded 2 (minutes.natAbs / 60) ++ ':' :: Date.padded 2 (minutes.natAbs % 60))

/-- The value of a date or time. -/
def value (t : Timestamp) : Except TimeFault Value := do
  if let some minutes := t.offset then
    if 1440 ≤ minutes.natAbs then throw (.offset (lengthText minutes))
  let date ← (Date.ofParts (toString t.year) t.year t.month t.day).mapError .date
  let numbers (l : List Nat) : String := ", ".intercalate (l.map toString)
  match t.time with
  | none =>
    return .stamp date.iso ("datetime.date(" ++ numbers [t.year, t.month, t.day] ++ ")")
  | some (hour, minute, second, microsecond) =>
    if 23 < hour then throw .hour
    if 59 < minute then throw .minute
    if 59 < second then throw .second
    let fraction := if microsecond = 0 then [] else '.' :: Date.padded 6 microsecond
    let zone := (t.offset.map offsetText).getD []
    let shown := date.isoChars ++ ' ' :: (Date.padded 2 hour ++ ':' :: (Date.padded 2 minute ++
      ':' :: (Date.padded 2 second ++ fraction ++ zone)))
    let small := if microsecond ≠ 0 then [second, microsecond] else
      if second ≠ 0 then [second] else []
    let zoneText := match t.offset with
      | none => ""
      | some 0 => ", tzinfo=datetime.timezone.utc"
      | some minutes => ", tzinfo=datetime.timezone(" ++ lengthText minutes ++ ")"
    return .stamp (String.ofList shown)
      ("datetime.datetime(" ++ numbers ([t.year, t.month, t.day, hour, minute] ++ small) ++
        zoneText ++ ")")

end Timestamp

end Worksheet.Yaml
