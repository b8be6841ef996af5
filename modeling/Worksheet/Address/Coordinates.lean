import Worksheet.Address.Basic
import Worksheet.Value.Basic

/-!
# Addresses from loose coordinates

Coordinates that come from outside may be any value.  They make an address when both are integers
that are not negative.
-/

namespace Worksheet.Address

/-- The coordinate that a value gives. -/
def coordinate (axis : String) : Value → Except Failure Nat
  | .number (.int i) => do
    if i < 0 then throw (.coordinateNegative axis (← Number.intText i))
    return i.toNat
  | v => do throw (.coordinateNotInteger axis (← v.quoted))

/-- The text of the address at the given row and column. -/
def encodeValues (row col : Value) : Except Failure String := do
  let row ← coordinate "row" row
  let col ← coordinate "col" col
  encode ⟨row, col⟩

end Worksheet.Address
