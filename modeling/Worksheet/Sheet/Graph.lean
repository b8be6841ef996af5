import Worksheet.Sheet.Basic
import Worksheet.Formula.References

/-!
# Who reads whom

The references between the cells of a sheet, as they stand in the texts of the formulas: a formula
names cells and ranges.  From them follow the formulas that read a cell, and the order in which the
formulas are evaluated again after a change.
-/

namespace Worksheet.Sheet

/-- Whether a range, given by its corners, covers the cell at an address. -/
def covers (corners : String × String) (address : String) : Except Failure Bool := do
  match ← Address.decode address with
  | none => return false
  | some position =>
    match ← Rectangle.ofTexts? corners.1 corners.2 with
    | none => return false
    | some r => return r.contains position

/-- The formula cells that the formula of a cell names, directly or by a range.  Those that are
named directly come first. -/
def references (s : Sheet) (address : String) : Except Failure (List String) :=
  match s.formula? address with
  | none => .ok []
  | some text =>
    let named := (Formula.referencedCells text).filter fun a => (s.formula? a).isSome
    (Formula.referencedRanges text).foldlM (fun found corners =>
      s.formulas.foldlM (fun found a => do
        if a ∈ found then return found
        return if ← covers corners a then found ++ [a] else found) found) named

/-- Whether any of some conditions holds, tried in order. -/
def anyHolds (p : α → Except Failure Bool) : List α → Except Failure Bool
  | [] => .ok false
  | a :: rest => do if ← p a then return true else anyHolds p rest

/-- Whether a formula's text names a cell, directly or by a range. -/
def textReads (text address : String) : Except Failure Bool :=
  if address ∈ Formula.referencedCells text then .ok true
  else anyHolds (covers · address) (Formula.referencedRanges text)

/-- The formula cells that read a cell, row-major. -/
def dependents (s : Sheet) (address : String) : Except Failure (List String) := do
  let address := Text.upper address
  let _ ← Address.decode address
  let found ← s.formulas.filterM fun a =>
    match s.formula? a with
    | some text => textReads text address
    | none => .ok false
  Address.sortRowMajor found

/-! ## The order of evaluation after a change -/

/-- The cells of a list that are among others. -/
def among (others cells : List String) : List String :=
  cells.filter (· ∈ others)

/-- The cells of a list that are not among others. -/
def notAmong (others cells : List String) : List String :=
  cells.filter (· ∉ others)

theorem length_among_add_notAmong (others cells : List String) :
    (among others cells).length + (notAmong others cells).length = cells.length := by
  induction cells with
  | nil => rfl
  | cons a cells ih =>
      unfold among notAmong at ih ⊢
      by_cases h : a ∈ others <;> simp [h] at ih ⊢ <;> omega

/-- The cells out of `rest` that depend on a cell of the queue, directly or through others. -/
def affectedBy (s : Sheet) (rest queue : List String) : Except Failure (List String) :=
  match queue with
  | [] => .ok []
  | address :: queue => do
    let readers ← s.dependents address
    let found := among readers rest
    return found ++ (← affectedBy s (notAmong readers rest) (queue ++ found))
termination_by 2 * rest.length + queue.length
decreasing_by
  have := length_among_add_notAmong readers rest
  simp only [List.length_append, List.length_cons]
  omega

/-- What is left of waiting cells when one of them is done: no cell waits for it any more. -/
def release (cell : String) (waiting : List (String × List String)) :
    List (String × List String) :=
  (waiting.filter (·.1 ≠ cell)).map fun (a, others) => (a, others.filter (· ≠ cell))

theorem length_release_lt {cell : String} {others : List String}
    {waiting : List (String × List String)} (h : (cell, others) ∈ waiting) :
    (release cell waiting).length < waiting.length := by
  rw [release, List.length_map]
  exact List.length_filter_lt_length_iff_exists.mpr ⟨(cell, others), h, by simp⟩

/-- Orders cells so that each comes after those that it waits for.  Of the cells that wait for no
other, the first one in the list is taken; when there is none, the rest follows as it stands. -/
def arrange (waiting : List (String × List String)) : List String :=
  match _h : waiting.find? (·.2.isEmpty) with
  | none => waiting.map (·.1)
  | some (cell, _) => cell :: arrange (release cell waiting)
termination_by waiting.length
decreasing_by exact length_release_lt (List.mem_of_find?_eq_some _h)

/-- The formula cells that a change of a cell affects, in an order in which they can be evaluated.
Cells on a cycle have no such order and come last, row-major. -/
def recalcOrder (s : Sheet) (address : String) : Except Failure (List String) := do
  let affected ← s.affectedBy s.formulas [Text.upper address]
  let readers ← affected.mapM fun a => return (a, ← s.dependents a)
  let rows ← Address.sortRowMajor affected
  return arrange (rows.map fun a =>
    (a, (readers.filter fun (_, targets) => a ∈ targets).map (·.1)))

end Worksheet.Sheet
