import Worksheet.Sheet.Pass

/-!
# Sessions

A session is a sheet together with what has been computed from it since its last change.  Any change
of a cell drops all that has been computed.
-/

namespace Worksheet

open Formula (Outcome)

/-- A sheet and the pass over it. -/
structure Session where
  sheet : Sheet
  pass : Pass

namespace Session

/-- A session in which nothing has been computed. -/
def start (sheet : Sheet) (source : RandomSource) : Session :=
  ⟨sheet, .start source⟩

/-- Drops what has been computed.  Numbers that were drawn stay drawn. -/
def invalidate (s : Session) : Session :=
  { s with pass := .start s.pass.source }

/-- Sets the value of a cell; null clears it. -/
def set (s : Session) (address : String) (v : Value) : Session :=
  invalidate { s with sheet := s.sheet.set address v }

/-- A computation in a session, which can fail as a whole. -/
abbrev Computation := ExceptT Failure (StateM Session)

/-- Goes on with the pass of the session. -/
def inPass {α : Type} (x : Sheet → ExceptT Failure (StateM Pass) α) : Computation α :=
  ExceptT.mk fun s =>
    let (a, pass) := (x s.sheet).run s.pass
    (a, { s with pass })

/-- The outcome of a cell. -/
def result (address : String) : Computation Outcome :=
  inPass (·.result address)

/-- The value that a cell shows. -/
def shown (address : String) : Computation Value :=
  return (← result address).shown

/-- The values that all cells show, row-major. -/
def shownAll : Computation (List (String × Value)) := do
  let addresses ← (Address.sortRowMajor (← getThe Session).sheet.cells.keys : Except Failure _)
  addresses.mapM fun address => return (address, ← shown address)

/-- The cells that have failed so far, in the order in which they were evaluated. -/
def failures (s : Session) : List (String × Failure) :=
  s.pass.results.reverse.filterMap fun (address, o) =>
    match o with
    | .ok _ => none
    | .error cause => some (address, cause)

end Session

end Worksheet
