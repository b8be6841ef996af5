import Worksheet.Sheet.Session
import Worksheet.Log.Event

/-!
# Recalculating a sheet

A recalculation evaluates all cells of a sheet and tells what happened as a series of events: that
it starts, each cycle, each failed cell in row-major order, and that it is complete.
-/

namespace Worksheet.Session

open Log

/-- The event of a cycle. -/
def cycleEvent (path : List String) : Event :=
  let addresses := Json.array (path.map Json.ofString)
  event .warning .cycleDetected (Failure.cycleText path)
    (cellContext path.head? none [Json.entry "cycle_path" addresses])
    (some FailureKind.circular.name)

/-- The event of a failed cell. -/
def failureEvent (sheet : Sheet) (address : String) (cause : Failure) : Event :=
  event .warning .cellError cause.message (cellContext (some address) (sheet.formula? address) [])
    (some cause.kind.name)

/-- A recalculation: its events as far as it went, as they are logged, and the values that the cells
show. -/
def recalculate (s : Session) :
    List Event × Except Failure (List (String × Value)) × Session :=
  let size := s.sheet.cells.keys.length
  let started :=
    event .info .recalcStarted ("recalculating " ++ toString size ++ " cells") [] none
  let (values, s) := shownAll.run s
  let told : Except Failure (List Event × List (String × Value)) := do
    let values ← values
    let failures := s.failures
    let failed ← Address.sortRowMajor (failures.map (·.1))
    let failedEvents := failed.filterMap fun address =>
      (failures.lookup address).map (failureEvent s.sheet address)
    let completed :=
      event .info .recalcCompleted
        ("recalculated " ++ toString values.length ++ " cells, " ++ toString failures.length ++
          " errors")
        [Json.entry "cells" (.ofInt values.length), Json.entry "errors" (.ofInt failures.length)]
        none
    return (s.pass.cycles.map cycleEvent ++ failedEvents ++ [completed], values)
  match told with
  | .ok (events, values) => ((started :: events).map Event.truncated, .ok values, s)
  | .error cause => ([started], .error cause, s)

end Worksheet.Session
