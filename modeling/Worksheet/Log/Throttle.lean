import Worksheet.Binary64.Basic

/-!
# Throttled diagnostics

When logging itself fails, a line on the error stream says so, but at most one in an interval of
time.
-/

namespace Worksheet.Log

/-- When a diagnostic was last written, and how long the next ones are held back. -/
structure Throttle where
  interval : Binary64
  last : Option Binary64

/-- The interval in seconds if nothing else is asked for. -/
def Throttle.defaultInterval : Binary64 := .ofInt 60

/-- Whether a diagnostic is held back at a time. -/
def Throttle.holds (t : Throttle) (now : Binary64) : Bool :=
  match t.last with
  | some last => (now - last).compare? t.interval == some .lt
  | none => false

/-- The text that is written for a diagnostic at a time, if it is not held back. -/
def Throttle.report (t : Throttle) (now : Binary64) (text : String) : String × Throttle :=
  if t.holds now then ("", t) else ("[sheetcalc] " ++ text ++ "\n", { t with last := some now })

end Worksheet.Log
