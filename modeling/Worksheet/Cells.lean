import Worksheet.Value.Basic

/-!
# Cells by address

Raw cell values by address, in the order in which the addresses first came.  Setting an address that
is present replaces its value and keeps its place.
-/

namespace Worksheet

/-- Raw cell values by address, each address once. -/
structure Cells where
  entries : List (String × Value)
  distinct : (entries.map (·.1)).Nodup

namespace Cells

/-- Entries with the value at an address replaced, or added at the end. -/
def put (address : String) (v : Value) : List (String × Value) → List (String × Value)
  | [] => [(address, v)]
  | (k, w) :: rest => if k = address then (k, v) :: rest else (k, w) :: put address v rest

theorem mem_keys_put {address : String} {v : Value} {k : String} :
    ∀ {l : List (String × Value)},
      k ∈ (put address v l).map (·.1) ↔ k ∈ l.map (·.1) ∨ k = address := by
  intro l
  induction l with
  | nil => simp [put]
  | cons e rest ih =>
      obtain ⟨a, w⟩ := e
      by_cases h : a = address
      · subst h
        simp only [put, if_true, List.map_cons, List.mem_cons]
        grind
      · simp only [put, if_neg h, List.map_cons, List.mem_cons, ih]
        grind

theorem nodup_put {address : String} {v : Value} {l : List (String × Value)}
    (h : (l.map (·.1)).Nodup) : ((put address v l).map (·.1)).Nodup := by
  induction l with
  | nil => simp [put]
  | cons e rest ih =>
      obtain ⟨a, w⟩ := e
      simp only [List.map_cons, List.nodup_cons] at h
      by_cases ha : a = address
      · simp only [put, if_pos ha, List.map_cons, List.nodup_cons]
        exact h
      · simp only [put, if_neg ha, List.map_cons, List.nodup_cons]
        refine ⟨fun hm => ?_, ih h.2⟩
        rcases mem_keys_put.mp hm with hm | hm
        · exact h.1 hm
        · exact ha hm

/-- No cells. -/
def empty : Cells := ⟨[], List.nodup_nil⟩

/-- The cells with one value set. -/
def insert (cells : Cells) (address : String) (v : Value) : Cells :=
  ⟨put address v cells.entries, nodup_put cells.distinct⟩

/-- The cells without one address. -/
def erase (cells : Cells) (address : String) : Cells where
  entries := cells.entries.filter (·.1 ≠ address)
  distinct := (List.filter_sublist.map _).nodup cells.distinct

/-- Cells from pairs: a repeated address keeps its first place and takes its last value. -/
def ofList (entries : List (String × Value)) : Cells :=
  entries.foldl (fun cells (address, v) => cells.insert address v) empty

/-- The addresses, in order. -/
def keys (cells : Cells) : List String :=
  cells.entries.map (·.1)

/-- The value at an address, if it is present. -/
def find? (cells : Cells) (address : String) : Option Value :=
  cells.entries.lookup address

/-- The value at an address; an absent cell holds nothing. -/
def get (cells : Cells) (address : String) : Value :=
  (cells.find? address).getD .null

instance : Inhabited Cells := ⟨empty⟩

end Cells

end Worksheet
