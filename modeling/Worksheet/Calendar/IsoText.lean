import Worksheet.Calendar.Date

/-!
# Dates in text

Reading a date from text in the ISO 8601 forms: `YYYY-MM-DD` and `YYYY-Www-D`, with or without the
hyphens, the day of a week being optional.  A time of day may follow after any one character, and a
distance from universal time after that.  Neither changes the date, but both have to make sense.
-/

namespace Worksheet.IsoText

/-- A fixed number of decimal digits at the front of a text, and what follows them. -/
def digits? : (count : Nat) → (n : Nat) → List Char → Option (Nat × List Char)
  | 0, n, cs => some (n, cs)
  | count + 1, n, c :: cs => if c.isDigit then digits? count (10 * n + (c.toNat - 48)) cs else none
  | _ + 1, _, [] => none

/-- A hyphen at the front of a text, which must be there if dates are written with hyphens. -/
def hyphen? (hyphens : Bool) (cs : List Char) : Option (List Char) :=
  if hyphens then
    match cs with
    | '-' :: cs => some cs
    | _ => none
  else some cs

/-- The day on which the first week of a year starts: the Monday of the week with the first
Thursday. -/
def firstMonday (year : Nat) : Int :=
  let first := Date.daysBeforeYear year + 1
  let weekday := Date.weekday first
  let monday : Int := (first : Int) - weekday
  if weekday > 3 then monday + 7 else monday

/-- Years that start on a Thursday, and leap years that start on a Wednesday, have 53 weeks. -/
def weeksInYear (year : Nat) : Nat :=
  let weekday := Date.weekday (Date.daysBeforeYear year + 1)
  if weekday == 3 || (weekday == 2 && isLeapYear year) then 53 else 52

/-- The date of a day of a week. -/
def ofWeek? (year week day : Nat) : Option Date :=
  if year = 0 || week = 0 || weeksInYear year < week || day = 0 || 7 < day then none
  else Date.ofOrdinal? (firstMonday year + ((week - 1) * 7 + (day - 1) : Nat))

/-- The date at the front of a text. -/
def datePart? (cs : List Char) : Option Date := do
  let (year, cs) ← digits? 4 0 cs
  let (hyphens, cs) := match cs with
    | '-' :: cs => (true, cs)
    | cs => (false, cs)
  match cs with
  | 'W' :: cs =>
    let (week, cs) ← digits? 2 0 cs
    if cs.isEmpty then ofWeek? year week 1
    else
      let (day, _) ← digits? 1 0 (← hyphen? hyphens cs)
      ofWeek? year week day
  | cs =>
    let (month, cs) ← digits? 2 0 cs
    let (day, _) ← digits? 2 0 (← hyphen? hyphens cs)
    Date.ofParts? year month day

/-- The date that a text of the length of a date, in bytes, stands for. -/
def date? (cs : List Char) : Option Date :=
  let size := (String.ofList cs).utf8ByteSize
  if size = 7 || size = 8 || size = 10 then datePart? cs else none

/-! ## Times of day -/

/-- A time of day, or a distance from universal time. -/
structure Clock where
  hour : Nat
  minute : Nat
  second : Nat
  microsecond : Nat
deriving DecidableEq

/-- What is left of a time after its digits. -/
inductive Remainder where
  | nothing
  /-- Characters that are no part of the time. -/
  | some
deriving DecidableEq

/-- Reads the fraction of a second: up to six digits count, and further digits are passed over. -/
def fraction? (cs : List Char) : Option (Nat × Remainder) := do
  let count := min 6 cs.length
  let (n, rest) ← digits? count 0 cs
  let rest := rest.dropWhile Char.isDigit
  return (n * Nat.pow 10 (6 - count), if rest.isEmpty then .nothing else .some)

/-- Reads hours, minutes and seconds of two digits each, as many as there are, then a fraction.
Colons are written between all of them or between none.  `parts` is the number of parts that can
still follow, and `read` holds those already read, last one first. -/
def clockParts? : (parts : Nat) → (colons : Option Bool) → (read : List Nat) → List Char →
    Option (List Nat × Nat × Remainder)
  | 0, _, read, cs => do
    let (microsecond, rest) ← fraction? cs
    return (read, microsecond, rest)
  | parts + 1, colons, read, cs => do
    let (n, cs) ← digits? 2 0 cs
    let read := n :: read
    match cs with
    | [] => return (read, 0, .nothing)
    | [_] => return (read, 0, .some)
    | c :: cs =>
      let separated := colons.getD (c == ':')
      if separated && c == ':' then clockParts? parts separated read cs
      else if c == '.' || c == ',' then
        let (microsecond, rest) ← fraction? cs
        return (read, microsecond, rest)
      else if separated then none
      else clockParts? parts separated read (c :: cs)

/-- Reads a time of day. -/
def clock? (cs : List Char) : Option (Clock × Remainder) := do
  let (read, microsecond, rest) ← clockParts? 3 none [] cs
  let part := fun i => read.reverse.getD i 0
  return (⟨part 0, part 1, part 2, microsecond⟩, rest)

/-- Whether a time exists on a day. -/
def Clock.isTimeOfDay (c : Clock) : Bool :=
  c.hour < 24 && c.minute < 60 && c.second < 60

/-- A distance from universal time is less than a day. -/
def Clock.isOffset (c : Clock) : Bool :=
  c.hour * 3600 + c.minute * 60 + c.second < 86400

/-- Whether a text is a time of day, with or without a distance from universal time. -/
def isTime (cs : List Char) : Bool :=
  let front := cs.takeWhile fun c => c != '+' && c != '-' && c != 'Z'
  match clock? front with
  | none => false
  | some (time, rest) =>
    time.isTimeOfDay &&
      match cs.drop front.length with
      | [] => rest == .nothing
      | ['Z'] => true
      | 'Z' :: _ => false
      | _ :: offset =>
        match clock? offset with
        | some (offset, .nothing) => offset.isOffset
        | _ => false

/-! ## Dates with times -/

/-- The place of the character between date and time, which the form of the date tells.  After a
week without hyphens an odd number of digits shows that the day of the week is among them. -/
def separatorPlace (cs : List Char) : Nat :=
  let isDigitAt := fun (i : Nat) => (cs[i]?.map Char.isDigit).getD false
  if cs.length = 7 then 7
  else if cs[4]? = some '-' then
    if cs[5]? = some 'W' then
      if cs[8]? = some '-' then (if isDigitAt 10 then 8 else 10) else 8
    else 10
  else if cs[4]? = some 'W' then
    let place := 7 + ((cs.drop 7).takeWhile Char.isDigit).length
    if place < 9 then place else if place % 2 = 0 then 7 else 8
  else 8

/-- The date of a date with an optional time. -/
def dateTime? (cs : List Char) : Option Date := do
  let place := separatorPlace cs
  let date ← datePart? (cs.take place)
  match cs.drop place with
  | [] => return date
  | _ :: time => if isTime time then return date else none

/-- The date that a text stands for.  A final `Z` stands for universal time. -/
def read? (cs : List Char) : Option Date :=
  (date? cs).or <| dateTime? <|
    match cs.reverse with
    | 'Z' :: front => front.reverse ++ "+00:00".toList
    | _ => cs

end Worksheet.IsoText
