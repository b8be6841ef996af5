import Worksheet.Calendar.Date

/-!
# Points in time

What a clock shows: a date and a time of day, with a distance from universal time if the clock has a
zone.
-/

namespace Worksheet

/-- How far a zone is ahead of universal time. -/
structure Offset where
  microseconds : Int
deriving DecidableEq

/-- A whole number stands for minutes. -/
instance : Coe Int Offset := ⟨fun minutes => ⟨minutes * 60000000⟩⟩

/-- A reading of a clock. -/
structure Moment where
  date : Date
  hour : Nat
  minute : Nat
  second : Nat
  microsecond : Nat
  offset : Option Offset

namespace Moment

/-- The number of microseconds of a day. -/
def microsecondsPerDay : Nat := 86400000000

/-- The microseconds from midnight on. -/
def ofDay (m : Moment) : Nat :=
  ((m.hour * 60 + m.minute) * 60 + m.second) * 1000000 + m.microsecond

/-- The same point in universal time, if it falls on a date that exists.  A clock without a zone is
taken to show universal time. -/
def toUniversal? (m : Moment) : Option Moment :=
  match m.offset with
  | none => some m
  | some offset =>
    let time : Int := m.date.ordinal * microsecondsPerDay + m.ofDay - offset.microseconds
    (Date.ofOrdinal? (Int.fdiv time microsecondsPerDay)).map fun date =>
      let ofDay := (Int.fmod time microsecondsPerDay).toNat
      { date := date
        hour := ofDay / 3600000000
        minute := ofDay / 60000000 % 60
        second := ofDay / 1000000 % 60
        microsecond := ofDay % 1000000
        offset := some ⟨0⟩ }

/-- The moment as `YYYY-MM-DDThh:mm:ss.mmmZ`.  The year has no zeros in front. -/
def stamp (m : Moment) : String :=
  String.ofList <|
    Decimal.digitChars m.date.year ++ '-' :: Date.padded 2 m.date.month ++
      '-' :: Date.padded 2 m.date.day ++ 'T' :: Date.padded 2 m.hour ++
      ':' :: Date.padded 2 m.minute ++ ':' :: Date.padded 2 m.second ++
      '.' :: Date.padded 3 (m.microsecond / 1000) ++ ['Z']

end Moment

end Worksheet
