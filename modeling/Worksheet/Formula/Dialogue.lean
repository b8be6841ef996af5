import Worksheet.Value.Basic
import Worksheet.Random

/-!
# Dialogues

Evaluating a formula is a dialogue: it asks for the values of cells and for random numbers, and goes
on with the answers.  A dialogue is a tree of questions and says nothing of where the answers come
from.  A plain table of values can give them, or a sheet that evaluates the cell that is asked for.
-/

namespace Worksheet.Formula

/-- A computation that asks for cells and random numbers before it has its result. -/
inductive Dialogue (α : Type) where
  | done (a : α)
  /-- Asks for the value of a cell.  `depth` says how deeply nested the question is. -/
  | read (address : String) (depth : Nat) (next : Except Failure Value → Dialogue α)
  | drawFraction (next : Binary64 → Dialogue α)
  | drawInteger (low high : Int) (next : Int → Dialogue α)

namespace Dialogue

/-- Goes on with a second dialogue after the first. -/
def bind {α β : Type} (d : Dialogue α) (f : α → Dialogue β) : Dialogue β :=
  match d with
  | done a => f a
  | read address depth next => read address depth fun v => (next v).bind f
  | drawFraction next => drawFraction fun x => (next x).bind f
  | drawInteger low high next => drawInteger low high fun i => (next i).bind f

instance : Monad Dialogue where
  pure := done
  bind := bind

/-- Holds a dialogue with given answers. -/
def run {m : Type → Type} [Monad m] (answer : String → Nat → m (Except Failure Value))
    (fraction : m Binary64) (integer : Int → Int → m Int) {α : Type} : Dialogue α → m α
  | done a => pure a
  | read address depth next => do run answer fraction integer (next (← answer address depth))
  | drawFraction next => do run answer fraction integer (next (← fraction))
  | drawInteger low high next => do run answer fraction integer (next (← integer low high))

end Dialogue

/-- A dialogue that can fail. -/
abbrev Evaluation := ExceptT Failure Dialogue

namespace Evaluation

/-- The value of a cell. -/
def readCell (depth : Nat) (address : String) : Evaluation Value :=
  ExceptT.mk (.read address depth .done)

/-- A random fraction. -/
def drawFraction : Evaluation Binary64 :=
  ExceptT.mk (.drawFraction fun x => .done (.ok x))

/-- A random integer between two bounds. -/
def drawInteger (low high : Int) : Evaluation Int :=
  ExceptT.mk (.drawInteger low high fun i => .done (.ok i))

/-- A result that needs no questions. -/
def ofExcept {α : Type} (r : Except Failure α) : Evaluation α :=
  ExceptT.mk (.done r)

/-- The result of an evaluation, or nothing if it fails. -/
def attempt {α : Type} (e : Evaluation α) : Evaluation (Option α) :=
  ExceptT.mk (e.run.bind fun r => .done (.ok r.toOption))

end Evaluation

end Worksheet.Formula
