import Worksheet.Proofs.Dependents
import Worksheet.Proofs.Edits
import Worksheet.Range

/-!
# Two walks over a range

What plain cells hold in a range is found by going through the cells of the rectangle or through the
addresses that hold something, whichever are fewer.  Either way it is what the cells of the
rectangle hold, row by row.
-/

namespace Worksheet

namespace Cells

open Address

variable {cells : Cells} {first last : String} {α : Type} {use : Value → Except Failure (Option α)}

/-- **What is found in a range is what its cells hold, row by row**, whichever way it is walked. -/
theorem inRange_eq (hrows : ∀ k ∈ cells.keys, RowReadable k) (huse : use .null = .ok none) :
    cells.inRange first last use = Rectangle.ofTexts first last >>= fun r =>
      List.filterMap id <$> r.addresses.mapM fun a => use (cells.get a) := by
  unfold inRange
  cases hr : Rectangle.ofTexts first last with
  | error cause => rfl
  | ok r =>
  obtain ⟨found, hf⟩ := Rectangle.populated_ok hrows (r := r)
  have hskip : ∀ l : List String,
      List.filterMap id <$> (l.filter (· ∈ cells.keys)).mapM (fun a => use (cells.get a)) =
        List.filterMap id <$> l.mapM fun a => use (cells.get a) := fun l =>
    filterMap_mapM_filter fun a _ hp => by
      rw [get_of_not_mem_keys (of_decide_eq_false hp), huse]
  show (r.populated cells.keys >>= fun addresses => _) = _
  rw [hf]
  have hfilter : found.filter (· ∈ cells.keys) = r.addresses.filter (· ∈ cells.keys) :=
    Rectangle.filter_populated_eq hr cells.distinct hf fun s _ hs => of_decide_eq_true hs
  show (List.filterMap id <$> found.mapM fun a => use (cells.get a)) = _
  rw [← hskip found, hfilter]
  exact hskip r.addresses

end Cells

/-! ## The addresses of a rectangle -/

namespace Rectangle

open Address

variable {r : Rectangle} {first last : String} {a b c d : Address}

theorem mem_addresses_iff (hr : ofTexts first last = .ok r) {s : String} :
    s ∈ r.addresses ↔ ∃ p, decode s = .ok (some p) ∧ r.contains p := by
  constructor
  · intro hs
    obtain ⟨p, hp, rfl⟩ := List.mem_map.mp hs
    have hin := mem_positions.mp hp
    exact ⟨p, decode_text_of_contains hr hin, hin⟩
  · rintro ⟨p, hp, hin⟩
    exact List.mem_map.mpr ⟨p, mem_positions.mpr hin, text_of_decode hp⟩

/-- The rectangle between the texts of two addresses. -/
theorem ofTexts_of_decode (ha : decode first = .ok (some a)) (hb : decode last = .ok (some b)) :
    ofTexts first last = .ok (ofCorners a b) := by
  unfold ofTexts
  rw [ha, hb]
  rfl

/-- The pairs of opposite corners of the rectangle that two positions span. -/
def oppositeCorners (a b : Address) : List (Address × Address) :=
  [(a, b), (b, a), (⟨a.row, b.col⟩, ⟨b.row, a.col⟩), (⟨b.row, a.col⟩, ⟨a.row, b.col⟩)]

theorem ofCorners_of_mem_oppositeCorners (h : (c, d) ∈ oppositeCorners a b) :
    ofCorners c d = ofCorners a b := by
  simp only [oppositeCorners, List.mem_cons, Prod.mk.injEq, List.not_mem_nil, or_false] at h
  rcases h with ⟨rfl, rfl⟩ | ⟨rfl, rfl⟩ | ⟨rfl, rfl⟩ | ⟨rfl, rfl⟩ <;>
    simp [ofCorners, Nat.min_comm, Nat.max_comm]

/-- Any two opposite corners of a rectangle between two texts can be written, and span the same. -/
theorem ofTexts_of_mem_oppositeCorners (ha : decode first = .ok (some a))
    (hb : decode last = .ok (some b)) (h : (c, d) ∈ oppositeCorners a b) :
    ofTexts c.text d.text = .ok (ofCorners a b) := by
  have hreadable : ∀ p : Address, p.row = a.row ∨ p.row = b.row →
      decode p.text = .ok (some p) := by
    rintro p (hp | hp) <;> refine decode_text ?_ <;> rw [hp]
    · exact length_digitChars_of_decode ha
    · exact length_digitChars_of_decode hb
  have hrows : (c.row = a.row ∨ c.row = b.row) ∧ (d.row = a.row ∨ d.row = b.row) := by
    simp only [oppositeCorners, List.mem_cons, Prod.mk.injEq, List.not_mem_nil, or_false] at h
    rcases h with ⟨rfl, rfl⟩ | ⟨rfl, rfl⟩ | ⟨rfl, rfl⟩ | ⟨rfl, rfl⟩ <;> simp
  rw [ofTexts_of_decode (hreadable c hrows.1) (hreadable d hrows.2),
    ofCorners_of_mem_oppositeCorners h]

end Rectangle

namespace Cells

open Address

/-- **Going through the cells of a rectangle and going through the addresses that hold something
find the same**, whatever else the cells are.  The cells of the rectangle are its addresses in
row-major order, whichever corners it is given by, and the addresses that the range covers. -/
theorem inRange_eq_ofCorners {cells : Cells} (hrows : ∀ k ∈ cells.keys, RowReadable k)
    {first last : String} {a b : Address} (ha : decode first = .ok (some a))
    (hb : decode last = .ok (some b)) : ∃ r, Rectangle.ofTexts first last = .ok r ∧
      cells.numbersIn first last =
        List.filterMap id <$> (r.addresses.map cells.get).mapM Value.number? ∧
      cells.filledIn first last = .ok ((r.addresses.map cells.get).filter fun v => !v.isEmpty) ∧
      (∀ s, s ∈ r.addresses ↔ ∃ p, decode s = .ok (some p) ∧
        (min a.row b.row ≤ p.row ∧ p.row ≤ max a.row b.row) ∧
        min a.col b.col ≤ p.col ∧ p.col ≤ max a.col b.col) ∧
      r.addresses.Nodup ∧ r.addresses.Pairwise TextPrecedes ∧
      (∀ c d, (c, d) ∈ Rectangle.oppositeCorners a b → Rectangle.ofTexts c.text d.text = .ok r) ∧
      ∀ s, s ∈ r.addresses ↔ Sheet.covers (first, last) s = .ok true := by
  have hr := Rectangle.ofTexts_of_decode ha hb
  have hpairwise := Rectangle.pairwise_addresses hr
  refine ⟨_, hr, ?_, ?_, fun s => ?_, nodup_of_pairwise_textPrecedes hpairwise, hpairwise,
    fun c d h => Rectangle.ofTexts_of_mem_oppositeCorners ha hb h, fun s => ?_⟩
  · unfold numbersIn
    rw [inRange_eq hrows rfl, hr, List.mapM_map]
    rfl
  · unfold filledIn
    rw [inRange_eq hrows rfl, hr]
    refine (filterMap_mapM_ok _).trans (congrArg Except.ok ?_)
    rw [← List.filterMap_eq_filter, List.filterMap_map]
    refine List.filterMap_congr fun s _ => ?_
    cases h : (cells.get s).isEmpty <;> simp [Option.guard, h]
  · simp only [Rectangle.mem_addresses_iff hr, Rectangle.contains_iff, and_assoc]
    rfl
  · rw [Rectangle.mem_addresses_iff hr, Sheet.covers_iff]
    exact ⟨fun ⟨p, hp, hin⟩ => Rectangle.covers_of_contains hr hp hin,
      Rectangle.contains_of_covers hr⟩

/-- Five cells, fewer than the range between `B10` and `A1` has.  Among texts `A10` would come
before `B2`, and two of the keys are no addresses. -/
def scatteredCells : Cells :=
  .ofList [("A10", .text " 3 "), ("a1", .number (.int 5)), ("B2", .number (.int 2)),
    ("A2", .text ""), ("A02", .number (.int 7))]

/-- The scattered cells are found as if the rectangle had been walked. -/
theorem numbersIn_scatteredCells :
    (∀ k ∈ scatteredCells.keys, RowReadable k) ∧ decode "B10" = .ok (some ⟨9, 1⟩) ∧
      decode "A1" = .ok (some ⟨0, 0⟩) ∧
      scatteredCells.numbersIn "B10" "A1" = .ok [.int 2, .int 3] ∧
      ∃ r, Rectangle.ofTexts "B10" "A1" = .ok r ∧ scatteredCells.numbersIn "B10" "A1" =
        List.filterMap id <$> (r.addresses.map scatteredCells.get).mapM Value.number? := by
  have hrows : ∀ k ∈ scatteredCells.keys, RowReadable k := by decide +kernel
  have hfirst : decode "B10" = .ok (some ⟨9, 1⟩) := by cbv
  have hlast : decode "A1" = .ok (some ⟨0, 0⟩) := by cbv
  obtain ⟨r, hr, hnumbers, _⟩ := inRange_eq_ofCorners hrows hfirst hlast
  exact ⟨hrows, hfirst, hlast, by cbv, r, hr, hnumbers⟩

end Cells

end Worksheet
