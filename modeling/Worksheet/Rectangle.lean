import Worksheet.Address.Basic

/-!
# Rectangles of cells

Two opposite corners span a rectangle, whichever two they are.  Its cells are listed in row-major
order: rows first, columns within a row.  Among a set of populated addresses, the ones inside a
rectangle are found from whichever side is smaller: the cells of the rectangle or the addresses.
-/

namespace Worksheet

/-- A non-empty rectangle of cells, with its bounds included. -/
structure Rectangle where
  top : Nat
  bottom : Nat
  left : Nat
  right : Nat
  top_le_bottom : top ≤ bottom
  left_le_right : left ≤ right

namespace Rectangle

/-- The rectangle that two opposite corners span. -/
def ofCorners (a b : Address) : Rectangle where
  top := min a.row b.row
  bottom := max a.row b.row
  left := min a.col b.col
  right := max a.col b.col
  top_le_bottom := by omega
  left_le_right := by omega

/-- The rectangle between two texts, if both are addresses. -/
def ofTexts? (first last : String) : Except Failure (Option Rectangle) := do
  let a ← Address.decode first
  let b ← Address.decode last
  match a, b with
  | some a, some b => return some (ofCorners a b)
  | _, _ => return none

/-- The rectangle between two texts. -/
def ofTexts (first last : String) : Except Failure Rectangle := do
  let a ← Address.decode first
  let b ← Address.decode last
  match a, b with
  | some a, some b => return ofCorners a b
  | some _, none => throw (.invalidAddress last)
  | none, _ => throw (.invalidAddress first)

/-- Whether a position lies in the rectangle. -/
def contains (r : Rectangle) (a : Address) : Bool :=
  r.top ≤ a.row && a.row ≤ r.bottom && r.left ≤ a.col && a.col ≤ r.right

/-- Whether the text is the address of a cell in the rectangle. -/
def containsText (r : Rectangle) (s : String) : Except Failure Bool := do
  match ← Address.decode s with
  | some a => return r.contains a
  | none => return false

/-- The number of cells. -/
def area (r : Rectangle) : Nat :=
  (r.bottom - r.top + 1) * (r.right - r.left + 1)

/-- The positions, row-major. -/
def positions (r : Rectangle) : List Address :=
  (List.range' r.top (r.bottom - r.top + 1)).flatMap fun row =>
    (List.range' r.left (r.right - r.left + 1)).map fun col => ⟨row, col⟩

/-- The addresses, row-major. -/
def addresses (r : Rectangle) : List String :=
  r.positions.map Address.text

/-- Those of the given texts that are addresses in the rectangle, row-major. -/
def hits (r : Rectangle) (keys : List String) : Except Failure (List String) := do
  Address.sortRowMajor (← keys.filterM r.containsText)

/-- The addresses in the rectangle that can be populated when all populated cells are among `keys`,
row-major.  A rectangle with no more cells than there are keys is walked cell by cell. -/
def populated (r : Rectangle) (keys : List String) : Except Failure (List String) :=
  if r.area ≤ keys.length then .ok r.addresses else r.hits keys

end Rectangle

end Worksheet
