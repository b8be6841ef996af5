import Worksheet.Cells
import Worksheet.Rectangle
import Worksheet.Value.Coercion

/-!
# Ranges of cells

What plain cells hold in the rectangle between two addresses, row-major: the numbers, or all that is
not empty.
-/

namespace Worksheet.Cells

/-- What is taken from the cells in a range. -/
def inRange (cells : Cells) (first last : String) (use : Value → Except Failure (Option α)) :
    Except Failure (List α) := do
  let r ← Rectangle.ofTexts first last
  let addresses ← r.populated cells.keys
  return (← addresses.mapM fun address => use (cells.get address)).filterMap id

/-- The numbers in a range.  Cells that do not count as a number are passed over. -/
def numbersIn (cells : Cells) (first last : String) : Except Failure (List Number) :=
  cells.inRange first last Value.number?

/-- The values in a range that are not empty. -/
def filledIn (cells : Cells) (first last : String) : Except Failure (List Value) :=
  cells.inRange first last fun v => .ok (if v.isEmpty then none else some v)

end Worksheet.Cells
