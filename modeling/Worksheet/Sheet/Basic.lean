import Worksheet.Cells
import Worksheet.Formula.Evaluation

/-!
# Sheets

A sheet is a set of cells, some of which hold formulas, and the options with which its formulas are
evaluated.  Addresses are in capital letters.
-/

namespace Worksheet

/-- Cells, and how their formulas are evaluated. -/
structure Sheet where
  cells : Cells
  /-- Whether text from a cell is refused in arithmetic. -/
  strict : Bool
  clock : Moment
  /-- How deeply evaluation nests, if that is bounded. -/
  limit : Option Nat

namespace Sheet

/-- Cells under addresses in any case. -/
def cellsOfList (entries : List (String × Value)) : Cells :=
  Cells.ofList (entries.map fun (address, v) => (Text.upper address, v))

/-- The sheet with one value set; null clears the cell. -/
def set (s : Sheet) (address : String) (v : Value) : Sheet :=
  let address := Text.upper address
  match v with
  | .null => { s with cells := s.cells.erase address }
  | v => { s with cells := s.cells.insert address v }

/-- The formula of a cell. -/
def formula? (s : Sheet) (address : String) : Option String :=
  (s.cells.get address).formula?

/-- The cells that hold formulas, in the order of the cells. -/
def formulas (s : Sheet) : List String :=
  s.cells.keys.filter fun address => (s.formula? address).isSome

/-- What the evaluation of the sheet's formulas depends on besides the cells' values. -/
def setting (s : Sheet) : Formula.Setting :=
  ⟨s.strict, s.clock, s.limit, s.cells.keys⟩

theorem mem_keys_of_formula? {s : Sheet} {address text : String}
    (h : s.formula? address = some text) : address ∈ s.cells.keys := by
  unfold formula? Cells.get Cells.find? at h
  unfold Cells.keys
  generalize s.cells.entries = l at h ⊢
  induction l with
  | nil => simp [Value.formula?] at h
  | cons e rest ih =>
      obtain ⟨k, v⟩ := e
      by_cases hk : address = k
      · exact List.mem_cons.mpr (.inl hk)
      · rw [List.lookup_cons, beq_false_of_ne hk] at h
        exact List.mem_cons_of_mem _ (ih h)

theorem mem_formulas {s : Sheet} {address text : String} (h : s.formula? address = some text) :
    address ∈ s.formulas :=
  List.mem_filter.mpr ⟨mem_keys_of_formula? h, by rw [h]; rfl⟩

end Sheet

end Worksheet
