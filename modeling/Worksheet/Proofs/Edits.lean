import Mathlib
import Worksheet.Sheet.Basic

/-!
# Edits of one cell

Setting or clearing a cell leaves all others as they are, and in their order.  A cell that is absent
holds nothing.
-/

namespace Worksheet

namespace Cells

variable {cells : Cells} {a b : String}

/-- An absent cell holds nothing. -/
theorem get_of_not_mem_keys (h : a ∉ cells.keys) : cells.get a = .null := by
  unfold get find?
  rw [List.lookup_eq_none_iff.mpr fun e he => bne_iff_ne.mpr fun heq => h ?_]
  · rfl
  · exact heq ▸ List.mem_map.mpr ⟨e, he, rfl⟩

theorem lookup_put_of_ne (h : b ≠ a) (v : Value) (l : List (String × Value)) :
    (put a v l).lookup b = l.lookup b := by
  induction l with
  | nil => simp [put, List.lookup, beq_false_of_ne h]
  | cons e rest ih =>
      obtain ⟨k, w⟩ := e
      by_cases hk : k = a
      · subst hk
        simp [put, List.lookup, beq_false_of_ne h]
      · simp [put, hk, List.lookup_cons, ih]

theorem lookup_filter_of_ne (h : b ≠ a) (l : List (String × Value)) :
    (l.filter (·.1 ≠ a)).lookup b = l.lookup b := by
  induction l with
  | nil => rfl
  | cons e rest ih =>
      obtain ⟨k, w⟩ := e
      by_cases hk : k = a
      · subst hk
        simpa [List.lookup_cons, beq_false_of_ne h] using ih
      · rw [List.filter_cons_of_pos (by simpa using hk), List.lookup_cons, List.lookup_cons, ih]

theorem get_insert_of_ne (h : b ≠ a) (v : Value) : (cells.insert a v).get b = cells.get b :=
  congrArg (fun o => Option.getD o Value.null) (lookup_put_of_ne h v cells.entries)

theorem get_erase_of_ne (h : b ≠ a) : (cells.erase a).get b = cells.get b :=
  congrArg (fun o => Option.getD o Value.null) (lookup_filter_of_ne h cells.entries)

theorem filter_keys_put (v : Value) (l : List (String × Value)) :
    ((put a v l).map (·.1)).filter (· ≠ a) = (l.map (·.1)).filter (· ≠ a) := by
  induction l with
  | nil => simp [put]
  | cons e rest ih =>
      obtain ⟨k, w⟩ := e
      by_cases hk : k = a
      · simp [put, hk]
      · rw [put, if_neg hk, List.map_cons, List.map_cons, List.filter_cons, List.filter_cons, ih]

theorem filter_keys_insert (v : Value) :
    (cells.insert a v).keys.filter (· ≠ a) = cells.keys.filter (· ≠ a) :=
  filter_keys_put v cells.entries

theorem filter_keys_erase : (cells.erase a).keys.filter (· ≠ a) = cells.keys.filter (· ≠ a) := by
  show ((cells.entries.filter (·.1 ≠ a)).map (·.1)).filter (· ≠ a) = _
  rw [List.filter_map, List.filter_filter, Cells.keys, List.filter_map]
  simp [Function.comp_def]

end Cells

namespace Sheet

/-- Whether two sheets differ in one cell at most. -/
structure SameBut (a : String) (s t : Sheet) : Prop where
  get : ∀ b, b ≠ a → t.cells.get b = s.cells.get b
  keys : t.cells.keys.filter (· ≠ a) = s.cells.keys.filter (· ≠ a)
  setting : t.setting = { s.setting with keys := t.cells.keys }

namespace SameBut

variable {a b : String} {s t : Sheet}

theorem formula?_eq (h : SameBut a s t) (hb : b ≠ a) : t.formula? b = s.formula? b :=
  congrArg Value.formula? (h.get b hb)

theorem mem_keys_iff (h : SameBut a s t) (hb : b ≠ a) :
    b ∈ s.cells.keys ↔ b ∈ t.cells.keys := by
  have hiff : b ∈ t.cells.keys.filter (· ≠ a) ↔ b ∈ s.cells.keys.filter (· ≠ a) := by rw [h.keys]
  simp only [List.mem_filter, decide_eq_true_eq, hb, ne_eq, not_false_iff, and_true] at hiff
  exact hiff.symm

/-- The other formulas are in the same order. -/
theorem filter_formulas (h : SameBut a s t) :
    t.formulas.filter (· ≠ a) = s.formulas.filter (· ≠ a) := by
  have hswap : ∀ u : Sheet, u.formulas.filter (· ≠ a) =
      (u.cells.keys.filter (· ≠ a)).filter fun b => (u.formula? b).isSome := fun u => by
    unfold formulas
    rw [List.filter_filter, List.filter_filter]
    simp only [Bool.and_comm]
  rw [hswap, hswap, h.keys]
  refine List.filter_congr fun b hb => ?_
  rw [h.formula?_eq (by simpa using (List.mem_filter.mp hb).2)]

end SameBut

theorem sameBut_set (s : Sheet) (address : String) (v : Value) :
    SameBut (Text.upper address) s (s.set address v) := by
  have hinsert : ∀ w, SameBut (Text.upper address) s
      { s with cells := s.cells.insert (Text.upper address) w } := fun w =>
    ⟨fun b hb => Cells.get_insert_of_ne hb w, Cells.filter_keys_insert w, rfl⟩
  cases v with
  | null => exact ⟨fun b hb => Cells.get_erase_of_ne hb, Cells.filter_keys_erase, rfl⟩
  | _ => exact hinsert _

end Sheet

end Worksheet
