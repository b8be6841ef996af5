import Worksheet.Proofs.Naming
import Worksheet.Proofs.Parsing
import Worksheet.Proofs.Session
import Worksheet.Sheet.Graph

/-!
# The readers of a cell

The formulas that read a cell are found by the texts of the formulas.  Every cell and every range
that a formula's expression has is found there, but for ranges that are written with blanks around
their colon: those are read when the formula is evaluated, and they are not found.
-/

namespace Worksheet

open Formula

/-! ## What the texts of formulas say -/

namespace Sheet

variable {s : Sheet}

theorem covers_iff {corners : String × String} {a : String} :
    covers corners a = .ok true ↔ Covers corners a := by
  constructor
  · intro h
    obtain ⟨position, hd, h⟩ := exists_of_bind h
    cases position with
    | none => cases h
    | some position =>
        obtain ⟨rectangle, hr, h⟩ := exists_of_bind h
        cases rectangle with
        | none => cases h
        | some r => exact ⟨r, position, Rectangle.ofTexts_iff.mp hr, hd, Except.ok.inj h⟩
  · rintro ⟨r, position, hr, hd, hin⟩
    unfold covers
    rw [hd]
    show (Rectangle.ofTexts? corners.1 corners.2 >>= _) = _
    rw [Rectangle.ofTexts_iff.mpr hr]
    exact congrArg Except.ok hin

theorem anyHolds_iff {α : Type} {p : α → Except Failure Bool} {l : List α} {b : Bool}
    (h : anyHolds p l = .ok b) : b = true ↔ ∃ a ∈ l, p a = .ok true := by
  induction l with
  | nil =>
      obtain rfl := Except.ok.inj h
      simp
  | cons a l ih =>
      rw [anyHolds] at h
      obtain ⟨holds, ha, h⟩ := exists_of_bind h
      cases holds with
      | true =>
          obtain rfl := Except.ok.inj h
          exact ⟨fun _ => ⟨a, List.mem_cons_self, ha⟩, fun _ => rfl⟩
      | false =>
          rw [ih h]
          simp [ha]

theorem anyHolds_ok {α : Type} {p : α → Except Failure Bool} {l : List α}
    (h : ∀ a ∈ l, ∃ b, p a = .ok b) : ∃ b, anyHolds p l = .ok b := by
  induction l with
  | nil => exact ⟨false, rfl⟩
  | cons a l ih =>
      obtain ⟨holds, ha⟩ := h a List.mem_cons_self
      rw [anyHolds, ha]
      cases holds with
      | true => exact ⟨true, rfl⟩
      | false => exact ih fun c hc => h c (List.mem_cons_of_mem _ hc)

theorem textReads_iff {text a : String} {b : Bool} (h : textReads text a = .ok b) :
    b = true ↔ a ∈ referencedCells text ∨ ∃ corners ∈ referencedRanges text, Covers corners a := by
  unfold textReads at h
  by_cases hm : a ∈ referencedCells text
  · rw [if_pos hm] at h
    obtain rfl := Except.ok.inj h
    exact ⟨fun _ => .inl hm, fun _ => rfl⟩
  · rw [if_neg hm] at h
    rw [anyHolds_iff h]
    simp only [covers_iff, hm, false_or]

theorem textReads_ok {text a : String} (ha : Address.RowReadable a)
    (h : ∀ corners ∈ referencedRanges text,
      Address.RowReadable corners.1 ∧ Address.RowReadable corners.2) :
    ∃ b, textReads text a = .ok b := by
  unfold textReads
  by_cases hm : a ∈ referencedCells text
  · exact ⟨true, if_pos hm⟩
  · rw [if_neg hm]
    exact anyHolds_ok fun corners hc => covers_ok (h corners hc).1 (h corners hc).2 ha

/-! ## Finding the readers -/

/-- Whether the rows in all ranges of formulas can be read. -/
def RangesReadable (s : Sheet) : Prop :=
  ∀ x text, s.formula? x = some text → ∀ corners ∈ referencedRanges text,
    Address.RowReadable corners.1 ∧ Address.RowReadable corners.2

/-- The readers of a cell are found if the rows of formulas and of their ranges can be read. -/
theorem dependents_ok_of_formulas (hformulas : ∀ x ∈ s.formulas, Address.RowReadable x)
    (hranges : s.RangesReadable) {a : String} (ha : Address.RowReadable (Text.upper a)) :
    ∃ found, s.dependents a = .ok found := by
  unfold dependents
  refine ok_bind (Address.decode_ok ha) fun _ _ => ok_bind (filterM_ok fun x _ => ?_)
    fun found hfound => Address.sortRowMajor_ok fun x hx => ?_
  · cases hf : s.formula? x with
    | none => exact ⟨false, rfl⟩
    | some text => exact textReads_ok ha (hranges x text hf)
  · exact hformulas x ((mem_filterM hfound x).mp hx).1

/-- The readers of a cell are found if all row numbers can be read. -/
theorem dependents_ok (h : s.RowsReadable) {a : String} (ha : Address.RowReadable (Text.upper a)) :
    ∃ found, s.dependents a = .ok found :=
  dependents_ok_of_formulas (fun x hx => h.keys x (List.mem_filter.mp hx).1) h.ranges ha

theorem mem_dependents_iff {a x text : String} {found : List String}
    (h : s.dependents a = .ok found) (hf : s.formula? x = some text) :
    x ∈ found ↔ Text.upper a ∈ referencedCells text ∨
      ∃ corners ∈ referencedRanges text, Covers corners (Text.upper a) := by
  unfold dependents at h
  obtain ⟨_, _, h⟩ := exists_of_bind h
  obtain ⟨unsorted, hu, h⟩ := exists_of_bind h
  have hx : x ∈ s.formulas := mem_formulas hf
  -- the test of each formula has given an answer, since the search has given one
  obtain ⟨reversed, hr, _⟩ := exists_of_bind hu
  obtain ⟨b, hb⟩ := ok_of_filterAuxM hr x hx
  rw [(Address.perm_of_sortRowMajor h).mem_iff, mem_filterM hu, hb]
  rw [hf] at hb
  rw [← textReads_iff hb]
  constructor
  · rintro ⟨_, hb⟩
    exact Except.ok.inj hb
  · rintro rfl
    exact ⟨hx, rfl⟩

/-! ## What is found and what is missed -/

variable {a x text : String} {e : Expr}

/-- A reader is found if the cell stands in its formula, or if no range of the formula has blanks
around its colon. -/
theorem mem_dependents_of_reads {found : List String} (h : s.dependents a = .ok found)
    (hf : s.formula? x = some text) (hp : parse text = .ok e) (hreads : e.Reads (Text.upper a))
    (hstyle : .cell (Text.upper a) ∈ e.parts ∨
      WrittenAs .compact e (Text.trimBlanks text.toList)) : x ∈ found := by
  have hcell : .cell (Text.upper a) ∈ e.parts → x ∈ found := by
    intro hm
    refine (mem_dependents_iff h hf).mpr (.inl ((mem_referencedCells (written_of_parse hp)).mpr ?_))
    exact List.mem_flatMap.mpr ⟨_, hm, List.mem_singleton_self _⟩
  rcases hstyle with hm | hcompact
  · exact hcell hm
  rcases hreads with hm | ⟨first, last, hm, hcovers⟩
  · exact hcell hm
  · have hnamed := referencedRanges_of_compact hcompact hm
    exact (mem_dependents_iff h hf).mpr (.inr ⟨(first, last), hnamed, hcovers⟩)

/-- Whether a formula does not name a cell: no cell in it does, no string in it names a range that
contains the cell, and its own ranges that contain the cell have blanks around the colon. -/
def Unnamed (e : Expr) (text address : String) : Prop :=
  address ∉ e.names ∧ (∀ r ∈ e.quotedRanges, ¬ Covers r address) ∧
    WrittenAs (RangeStyle.any.tight fun r => ¬ Covers r address) e (Text.trimBlanks text.toList)

theorem not_mem_dependents_iff {found : List String} (h : s.dependents a = .ok found)
    (hf : s.formula? x = some text) (hp : parse text = .ok e) :
    x ∉ found ↔ Unnamed e text (Text.upper a) := by
  have hwritten := written_of_parse hp
  unfold Unnamed
  rw [mem_dependents_iff h hf, not_or, mem_referencedCells hwritten,
    ← forall_referencedRanges_iff hwritten]
  simp only [not_exists, not_and]

/-- **The formulas that are found as readers of a cell are those that name it.**  A formula that
reads the cell names it if the cell stands in it, or if its ranges have no blanks around the colon.
There is an answer whenever all row numbers can be read. -/
theorem dependents_finds_iff (hf : s.formula? x = some text) (hp : parse text = .ok e) :
    (s.RowsReadable → Address.RowReadable (Text.upper a) → ∃ found, s.dependents a = .ok found) ∧
      ∀ found, s.dependents a = .ok found →
        (x ∈ found ↔ ¬ Unnamed e text (Text.upper a)) ∧
        (e.Reads (Text.upper a) → .cell (Text.upper a) ∈ e.parts ∨
          WrittenAs .compact e (Text.trimBlanks text.toList) → x ∈ found) := by
  refine ⟨fun hrows ha => dependents_ok hrows ha, fun found h => ⟨?_, ?_⟩⟩
  · rw [← not_mem_dependents_iff h hf hp, not_not]
  · exact mem_dependents_of_reads h hf hp

/-- One formula with blanks around the colon of its range, and one without. -/
def spacedRange : Sheet :=
  ofEntries [("A2", .number (.int 1)), ("B1", .text "=SUM(A1 : A3)"), ("B2", .text "=SUM(A1:A3)")]

/-- The expression of both formulas. -/
def sumOfRange : Expr :=
  .call "SUM(" [.range "A1" "A3"]

theorem reads_sumOfRange : sumOfRange.Reads "A2" := by
  have hcovers : covers ("A1", "A3") "A2" = .ok true := by cbv
  exact .inr ⟨"A1", "A3", by simp [sumOfRange, Expr.parts, partsOfAll], covers_iff.mp hcovers⟩

theorem dependents_spacedRange : spacedRange.dependents "A2" = .ok ["B2"] := by
  cbv

/-- The formula with the blanks is missed. -/
theorem misses_spacedRange : spacedRange.formula? "B1" = some "=SUM(A1 : A3)" ∧
    parse "=SUM(A1 : A3)" = .ok sumOfRange ∧ sumOfRange.Reads "A2" ∧
    ∃ found, spacedRange.dependents "A2" = .ok found ∧ "B1" ∉ found := by
  have hparse : parse "=SUM(A1 : A3)" = .ok sumOfRange := by cbv
  exact ⟨by decide +kernel, hparse, reads_sumOfRange, _, dependents_spacedRange, by decide⟩

/-- The formula without blanks is found. -/
theorem finds_spacedRange : ∃ found, spacedRange.dependents "A2" = .ok found ∧ "B2" ∈ found := by
  have hformula : spacedRange.formula? "B2" = some "=SUM(A1:A3)" := by decide +kernel
  have hparse : parse "=SUM(A1:A3)" = .ok sumOfRange := by cbv
  have hupper : Text.upper "A2" = "A2" := by decide +kernel
  have hreads : sumOfRange.Reads (Text.upper "A2") := by
    rw [hupper]
    exact reads_sumOfRange
  have hcells : IsCell ['A', '1'] ∧ IsCell ['A', '3'] :=
    ⟨⟨['A'], ['1'], rfl, by decide, forall_mem_of_all (by decide), by decide,
      forall_mem_of_all (by decide)⟩, ⟨['A'], ['3'], rfl, by decide,
      forall_mem_of_all (by decide), by decide, forall_mem_of_all (by decide)⟩⟩
  have hnone : Gap [] := fun _ hc => absurd hc List.not_mem_nil
  have hopener : IsOpener ['S', 'U', 'M', '('] :=
    ⟨'S', ['U', 'M'], [], rfl, by decide, forall_mem_of_all (by decide), by simp⟩
  have hcompact : WrittenAs .compact sumOfRange (Text.trimBlanks "=SUM(A1:A3)".toList) := by
    have hrange : SpellsAs .compact 8 (.range "A1" "A3") ['A', '1', ':', 'A', '3'] :=
      @SpellsAs.range .compact ['A', '1'] ['A', '3'] [] [] hcells.1 ⟨rfl, rfl⟩ hcells.2
    have hargs : SpellsArgumentsAs .compact [.range "A1" "A3"] ['A', '1', ':', 'A', '3', ')'] :=
      .single hnone (.loosen (by omega) hrange) hnone
    exact ⟨[], _, hnone, .loosen (by omega) (.call hopener hargs), rfl⟩
  have hfinds := dependents_finds_iff (a := "A2") hformula hparse
  have hrows : spacedRange.RowsReadable := by decide +kernel
  have hrow : Address.RowReadable (Text.upper "A2") := by decide +kernel
  obtain ⟨found, hfound⟩ := hfinds.1 hrows hrow
  exact ⟨found, hfound, (hfinds.2 found hfound).2 hreads (.inr hcompact)⟩

end Sheet

end Worksheet
