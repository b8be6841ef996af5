import Worksheet.Proofs.Dependents

/-!
# The formulas that a formula names

A cell's references are the formula cells that its formula names: those in its text, and those that
its ranges cover.  They are found in the text of the formula, as the readers of a cell are, so in a
formula that has no blanks around the colons of its ranges, all that it reads is found.

The search goes through the ranges in turn, and it fails at a range with a row that cannot be read,
unless there is no formula left that the range would have to be compared with.
-/

namespace Worksheet.Sheet

open Formula

variable {s : Sheet} {x y text : String} {corners : String × String}

/-! ## The search -/

/-- Adds a cell to those found so far if a range covers it. -/
def addCovered (corners : String × String) (found : List String) (a : String) :
    Except Failure (List String) := do
  if a ∈ found then return found
  return if ← covers corners a then found ++ [a] else found

/-- Adds the formula cells that a range covers to those found so far. -/
def addAllCovered (s : Sheet) (found : List String) (corners : String × String) :
    Except Failure (List String) :=
  s.formulas.foldlM (addCovered corners) found

/-- The formula cells that stand in the text of a formula. -/
def namedFormulas (s : Sheet) (text : String) : List String :=
  (referencedCells text).filter fun a => (s.formula? a).isSome

theorem mem_namedFormulas : y ∈ s.namedFormulas text ↔ y ∈ s.formulas ∧ y ∈ referencedCells text := by
  rw [namedFormulas, List.mem_filter]
  constructor
  · rintro ⟨hy, hformula⟩
    obtain ⟨_, hformula⟩ := Option.isSome_iff_exists.mp hformula
    exact ⟨mem_formulas hformula, hy⟩
  · rintro ⟨hformula, hy⟩
    exact ⟨hy, (List.mem_filter.mp hformula).2⟩

theorem references_eq (hf : s.formula? x = some text) :
    s.references x = (referencedRanges text).foldlM s.addAllCovered (s.namedFormulas text) := by
  unfold references
  rw [hf]
  rfl

theorem references_eq_nil (hf : s.formula? x = none) : s.references x = .ok [] := by
  unfold references
  rw [hf]

/-! ## What is found -/

theorem mem_addCovered {found found' : List String} {a : String}
    (h : addCovered corners found a = .ok found') (y : String) :
    y ∈ found' ↔ y ∈ found ∨ y = a ∧ Covers corners y := by
  unfold addCovered at h
  by_cases hin : a ∈ found
  · rw [if_pos hin] at h
    obtain rfl := Except.ok.inj h
    refine ⟨.inl, ?_⟩
    rintro (hy | ⟨rfl, _⟩)
    · exact hy
    · exact hin
  rw [if_neg hin] at h
  obtain ⟨holds, hcovers, h⟩ := exists_of_bind h
  obtain rfl := Except.ok.inj h
  cases holds with
  | true =>
      rw [if_pos rfl, List.mem_append, List.mem_singleton]
      exact or_congr_right ⟨fun hy => ⟨hy, hy ▸ covers_iff.mp hcovers⟩, And.left⟩
  | false =>
      refine ⟨.inl, ?_⟩
      rintro (hy | ⟨rfl, hc⟩)
      · exact hy
      · rw [covers_iff.mpr hc] at hcovers
        cases hcovers

theorem mem_addAllCovered {found found' : List String}
    (h : s.addAllCovered found corners = .ok found') (y : String) :
    y ∈ found' ↔ y ∈ found ∨ y ∈ s.formulas ∧ Covers corners y := by
  rw [mem_foldlM (P := fun a y => y = a ∧ Covers corners y)
    (fun a _ _ _ hadd => mem_addCovered hadd) h y]
  simp

/-- **The references of a cell are the formula cells that its formula names.** -/
theorem mem_references_iff (hf : s.formula? x = some text) {deps : List String}
    (h : s.references x = .ok deps) : y ∈ deps ↔ y ∈ s.formulas ∧
      (y ∈ referencedCells text ∨ ∃ corners ∈ referencedRanges text, Covers corners y) := by
  rw [references_eq hf] at h
  rw [mem_foldlM (P := fun corners y => y ∈ s.formulas ∧ Covers corners y)
    (fun corners _ _ _ hadd => mem_addAllCovered hadd) h y, mem_namedFormulas]
  constructor
  · rintro (⟨hy, hcell⟩ | ⟨corners, hc, hy, hcovers⟩)
    · exact ⟨hy, .inl hcell⟩
    · exact ⟨hy, .inr ⟨corners, hc, hcovers⟩⟩
  · rintro ⟨hy, hcell | ⟨corners, hc, hcovers⟩⟩
    · exact .inl ⟨hy, hcell⟩
    · exact .inr ⟨corners, hc, hy, hcovers⟩

/-- Only formulas have references. -/
theorem isSome_formula?_of_references {deps : List String} (h : s.references x = .ok deps)
    (hy : y ∈ deps) : (s.formula? x).isSome := by
  cases hf : s.formula? x with
  | some text => rfl
  | none =>
      rw [references_eq_nil hf] at h
      rw [← Except.ok.inj h] at hy
      exact absurd hy List.not_mem_nil

theorem mem_formulas_of_mem_references {deps : List String} (h : s.references x = .ok deps)
    (hy : y ∈ deps) : y ∈ s.formulas := by
  obtain ⟨text, hf⟩ := Option.isSome_iff_exists.mp (isSome_formula?_of_references h hy)
  exact ((mem_references_iff hf h).mp hy).1

/-- A formula that has no blanks around the colons of its ranges names all formula cells that it
reads. -/
theorem mem_references_of_reads {e : Expr} (hf : s.formula? x = some text)
    (hp : parse text = .ok e) (hcompact : WrittenAs .compact e (Text.trimBlanks text.toList))
    {deps : List String} (h : s.references x = .ok deps) (hy : y ∈ s.formulas)
    (hreads : e.Reads y) : y ∈ deps := by
  refine (mem_references_iff hf h).mpr ⟨hy, ?_⟩
  rcases hreads with hm | ⟨first, last, hm, hcovers⟩
  · refine .inl ((mem_referencedCells (written_of_parse hp)).mpr ?_)
    exact List.mem_flatMap.mpr ⟨_, hm, List.mem_singleton_self _⟩
  · exact .inr ⟨(first, last), referencedRanges_of_compact hcompact hm, hcovers⟩

/-! ## When the search ends well -/

/-- Whether the rows of both ends of a range can be read. -/
def CornersReadable (corners : String × String) : Prop :=
  Address.RowReadable corners.1 ∧ Address.RowReadable corners.2

theorem cornersReadable_of_covers {b : Bool} (hy : Address.WellFormed y)
    (h : covers corners y = .ok b) : CornersReadable corners := by
  obtain ⟨position, hy⟩ := hy
  obtain ⟨_, hy', h⟩ := exists_of_bind h
  obtain rfl := Except.ok.inj (hy.symm.trans hy')
  obtain ⟨_, hr, _⟩ := exists_of_bind h
  obtain ⟨_, hfirst, hr⟩ := exists_of_bind hr
  obtain ⟨_, hlast, _⟩ := exists_of_bind hr
  exact ⟨Address.rowReadable_of_decode hfirst, Address.rowReadable_of_decode hlast⟩

theorem covers_of_not_wellFormed (hy : Address.RowReadable y) (hnot : ¬ Address.WellFormed y) :
    covers corners y = .ok false := by
  obtain ⟨position, hdecode⟩ := Address.decode_ok hy
  cases position with
  | none =>
      unfold covers
      rw [hdecode]
      rfl
  | some a => exact absurd ⟨a, hdecode⟩ hnot

/-- A range is gone through if its rows can be read, or if there is no cell left to compare with. -/
theorem addAllCovered_ok_iff (hkeys : ∀ y ∈ s.formulas, Address.RowReadable y)
    {found : List String} : (∃ found', s.addAllCovered found corners = .ok found') ↔
      CornersReadable corners ∨ ∀ y ∈ s.formulas, Address.WellFormed y → y ∈ found := by
  constructor
  · rintro ⟨found', h⟩
    by_cases hr : CornersReadable corners
    · exact .inl hr
    refine .inr fun y hy hwell => ?_
    by_contra hnot
    obtain ⟨before, after, hsplit⟩ := List.append_of_mem hy
    rw [addAllCovered, hsplit, List.foldlM_append] at h
    obtain ⟨found₁, hbefore, h⟩ := exists_of_bind h
    rw [List.foldlM_cons] at h
    obtain ⟨_, hadd, _⟩ := exists_of_bind h
    -- the cell has not been found before, so it is compared with the range
    have hnot₁ : y ∉ found₁ := by
      rw [mem_foldlM (P := fun a y => y = a ∧ Covers corners y)
        (fun a _ _ _ hadd => mem_addCovered hadd) hbefore y]
      rintro (hin | ⟨_, _, _, hcovers⟩)
      · exact hnot hin
      · exact hr (cornersReadable_of_covers hwell (covers_iff.mpr hcovers))
    unfold addCovered at hadd
    rw [if_neg hnot₁] at hadd
    obtain ⟨_, hcovers, _⟩ := exists_of_bind hadd
    exact hr (cornersReadable_of_covers hwell hcovers)
  · rintro (hr | hall)
    · refine foldlM_ok (fun y hy found => ?_) found
      unfold addCovered
      by_cases hin : y ∈ found
      · exact ⟨found, if_pos hin⟩
      · rw [if_neg hin]
        exact ok_bind (covers_ok hr.1 hr.2 (hkeys y hy)) fun _ _ => ⟨_, rfl⟩
    · refine ⟨found, foldlM_eq_self fun y hy => ?_⟩
      unfold addCovered
      by_cases hin : y ∈ found
      · exact if_pos hin
      · rw [if_neg hin, covers_of_not_wellFormed (hkeys y hy) fun hwell => hin (hall y hy hwell)]
        rfl

/-- Whether each range of a list has rows that can be read, or comes when all formula cells at
addresses are among given ones or covered by the ranges before it. -/
def RangesPass (s : Sheet) (found : List String) (ranges : List (String × String)) : Prop :=
  ∀ before corners after, ranges = before ++ corners :: after → ¬ CornersReadable corners →
    ∀ y ∈ s.formulas, Address.WellFormed y → y ∈ found ∨ ∃ c ∈ before, Covers c y

theorem foldlM_addAllCovered_ok_iff (hkeys : ∀ y ∈ s.formulas, Address.RowReadable y)
    (ranges : List (String × String)) : ∀ found : List String,
    (∃ found', ranges.foldlM s.addAllCovered found = .ok found') ↔ s.RangesPass found ranges := by
  induction ranges with
  | nil =>
      refine fun found => ⟨fun _ before corners after h => ?_, fun _ => ⟨found, rfl⟩⟩
      exact absurd h.symm (List.append_ne_nil_of_right_ne_nil _ (List.cons_ne_nil _ _))
  | cons first ranges ih =>
      intro found
      rw [List.foldlM_cons]
      constructor
      · rintro ⟨found', h⟩ before corners after hsplit hnot y hy hwell
        obtain ⟨found₁, hfirst, h⟩ := exists_of_bind h
        rcases List.cons_eq_append_iff.mp hsplit with ⟨rfl, heq⟩ | ⟨before, rfl, heq⟩
        · obtain ⟨rfl, rfl⟩ := List.cons.inj heq
          exact .inl (((addAllCovered_ok_iff hkeys).mp ⟨_, hfirst⟩).resolve_left hnot y hy hwell)
        · rcases (ih found₁).mp ⟨found', h⟩ before corners after heq hnot y hy hwell with hin | hc
          · rcases (mem_addAllCovered hfirst y).mp hin with hin | ⟨_, hcovers⟩
            · exact .inl hin
            · exact .inr ⟨first, List.mem_cons_self, hcovers⟩
          · obtain ⟨c, hc, hcovers⟩ := hc
            exact .inr ⟨c, List.mem_cons_of_mem _ hc, hcovers⟩
      · intro h
        refine ok_bind ((addAllCovered_ok_iff hkeys).mpr (or_iff_not_imp_left.mpr fun hnot => ?_))
          fun found₁ hfirst => (ih found₁).mpr fun before corners after hsplit hnot y hy hwell => ?_
        · intro y hy hwell
          refine (h [] first ranges rfl hnot y hy hwell).resolve_right ?_
          rintro ⟨c, hc, _⟩
          exact List.not_mem_nil hc
        · rw [mem_addAllCovered hfirst y, or_assoc]
          refine (h (first :: before) corners after (by rw [hsplit]; rfl) hnot y hy hwell).imp_right ?_
          rintro ⟨c, hc, hcovers⟩
          rcases List.mem_cons.mp hc with rfl | hc
          · exact .inl ⟨hy, hcovers⟩
          · exact .inr ⟨c, hc, hcovers⟩

/-- **When the references of a cell are found**: a range with a row that cannot be read does no harm
if all formula cells at addresses have been found when it is come to. -/
theorem references_ok_iff (hkeys : ∀ y ∈ s.formulas, Address.RowReadable y)
    (hf : s.formula? x = some text) : (∃ deps, s.references x = .ok deps) ↔
      s.RangesPass (referencedCells text) (referencedRanges text) := by
  rw [references_eq hf, foldlM_addAllCovered_ok_iff hkeys]
  unfold RangesPass
  simp +contextual only [mem_namedFormulas, true_and]

end Worksheet.Sheet
