import Worksheet.Proofs.Capitals
import Worksheet.Proofs.Literals
import Worksheet.Proofs.References

/-!
# Which sheets are always shown

Evaluating a formula always has an outcome.  What can fail as a whole is what is done around it: the
search for the references of a cell before it is evaluated, and sorting the addresses of all cells.
Both read row numbers, and both fail at one with too many digits.  The first finds it in any text
of a formula that has the form of a range, also where evaluation never comes or where it stands in
a string.
-/

namespace Worksheet

open Formula

namespace Sheet

variable {s : Sheet}

/-- A cell is not evaluated if the search for its references fails. -/
theorem result_error {name : String} {cause : Failure}
    (h : s.references (Text.upper name) = .error cause) {p : Pass}
    (hp : p.find? (Text.upper name) = none) :
    StateT.run (s.result name).run p = (.error cause, p) := by
  have hprepare : StateT.run (s.prepare (Text.upper name)).run p = (.error cause, p) := by
    rw [run_prepare hp, walk, h]
    rfl
  exact run_bind_error hprepare

/-- Whether all rows can be read that are come to around evaluation: those of the addresses of
cells, and those of a formula's ranges, unless all formula cells at addresses are named before. -/
structure Legible (s : Sheet) : Prop where
  keys : ∀ a ∈ s.cells.keys, Address.RowReadable a
  ranges : ∀ x text, s.formula? x = some text →
    s.RangesPass (referencedCells text) (referencedRanges text)

theorem Legible.references_ok (h : s.Legible) (x : String) : ∃ deps, s.references x = .ok deps := by
  cases hf : s.formula? x with
  | none => exact ⟨[], references_eq_nil hf⟩
  | some text =>
      refine (references_ok_iff (fun y hy => ?_) hf).mpr (h.ranges x text hf)
      exact h.keys y (List.mem_filter.mp hy).1

theorem RowsReadable.legible (h : s.RowsReadable) : s.Legible where
  keys := h.keys
  ranges x text hf _ corners _ hsplit hnot :=
    absurd (h.ranges x text hf corners (by rw [hsplit]; simp)) hnot

end Sheet

namespace Session

variable {sheet : Sheet}

/-- Whether each cell of a sheet, and all of them at once, can be shown, whatever has been asked for
before. -/
def AlwaysShown (sheet : Sheet) : Prop :=
  ∀ (source : RandomSource) (calls : List Call),
    (∀ name, ∃ v, (StateT.run (shown name).run (after (start sheet source) calls)).1 = .ok v) ∧
      ∃ values, (StateT.run shownAll.run (after (start sheet source) calls)).1 = .ok values

theorem alwaysShown_of_legible (h : sheet.Legible) : AlwaysShown sheet := by
  intro source calls
  obtain ⟨q, hafter, hq, _⟩ := after_accounted (False.elim : False → sheet.RowsReadable) calls _
    (Pass.accounted_start sheet source)
  have hafter : after (start sheet source) calls = ⟨sheet, q⟩ := hafter
  rw [hafter]
  refine ⟨fun name => ?_, ?_⟩
  · obtain ⟨r, _, hrun, _, _, hr⟩ :=
      Keeps.shown (fun _ : True => h.references_ok) name q hq
    rw [hrun]
    exact hr trivial
  · obtain ⟨r, _, hrun, _, _, hr⟩ :=
      Keeps.shownAll_of_references (fun _ : True => h.keys) (fun _ => h.references_ok) q hq
    rw [hrun]
    exact hr trivial

/-- A failure in the search for the references of a cell is one of showing it. -/
theorem run_shown_error {name : String} {cause : Failure} {p : Pass}
    (h : sheet.references (Text.upper name) = .error cause)
    (hp : p.find? (Text.upper name) = none) :
    (StateT.run (shown name).run ⟨sheet, p⟩).1 = .error cause := by
  have hrun := run_result (Sheet.result_error h hp)
  exact congrArg Prod.fst (Sheet.run_bind_error hrun)

theorem run_shownAll_error {cause : Failure} {t : Session}
    (h : Address.sortRowMajor t.sheet.cells.keys = .error cause) :
    (StateT.run shownAll.run t).1 = .error cause := by
  show (StateT.run (liftM (Address.sortRowMajor t.sheet.cells.keys) >>= _ :
    Computation (List (String × Value))).run t).1 = _
  rw [h]
  rfl

theorem AlwaysShown.legible (hcap : sheet.Capital) (h : AlwaysShown sheet) : sheet.Legible := by
  let source := RandomSource.scripted [] []
  obtain ⟨hshown, hall⟩ := h source []
  have hkeys : ∀ a ∈ sheet.cells.keys, Address.RowReadable a := by
    cases hsort : Address.sortRowMajor sheet.cells.keys with
    | ok sorted => exact Address.rowReadable_of_sortRowMajor hsort
    | error cause =>
        obtain ⟨values, hall⟩ := hall
        rw [run_shownAll_error hsort] at hall
        cases hall
  refine ⟨hkeys, fun x text hf => ?_⟩
  have hx : Text.upper x = x := hcap x (Sheet.mem_keys_of_formula? hf)
  refine (Sheet.references_ok_iff (fun y hy => hkeys y (List.mem_filter.mp hy).1) hf).mp ?_
  cases href : sheet.references x with
  | ok deps => exact ⟨deps, rfl⟩
  | error cause =>
      obtain ⟨v, hv⟩ := hshown x
      have hfail : (StateT.run (shown x).run (start sheet source)).1 = .error cause :=
        run_shown_error (hx.symm ▸ href) rfl
      cases hfail.symm.trans hv

/-- **The sheets that are always shown are those whose rows can be read** where they are come to. -/
theorem alwaysShown_iff (hcap : sheet.Capital) : AlwaysShown sheet ↔ sheet.Legible :=
  ⟨fun h => h.legible hcap, alwaysShown_of_legible⟩

/-- A ring, a formula that cannot be read, a range around it, and keys that are no addresses. -/
def raggedSheet : Sheet :=
  .ofEntries [("a1", .text "=SUM(B1:B3)"), ("B2", .text "=C3+A1"), ("C3", .text "=B2:"),
    ("A0", .text "=A0"), ("x y", .number (.int 1))]

theorem alwaysShown_raggedSheet : raggedSheet.Capital ∧ raggedSheet.Legible ∧
    AlwaysShown raggedSheet := by
  have hcap : raggedSheet.Capital := Sheet.capital_ofEntries _
  have hrows : raggedSheet.RowsReadable := by decide +kernel
  exact ⟨hcap, hrows.legible, (alwaysShown_iff hcap).mpr hrows.legible⟩

end Session

/-! ## A range in quotes -/

namespace Formula

variable {first last : List Char}

theorem SearchesTokens.quotedFormula {α : Type} {search : List Char → List α}
    (h : SearchesTokens search) (cs : List Char) :
    search (Formula.quotedFormula cs).toList = search cs := by
  have hgap : Gap [] := forall_mem_of_all rfl
  have hopening : ∀ c ∈ ['=', '"'], ¬ Text.isWord c := forall_mem_of_all (by decide)
  have hclosing : search (['=', '"'] ++ cs ++ [] ++ ['"']) = search (['=', '"'] ++ cs) :=
    h.closing _ hgap (by decide) (by decide)
  rw [List.append_nil, h.others hopening] at hclosing
  rw [Formula.quotedFormula, String.toList_ofList]
  exact hclosing

/-- In a text that has the form of a range, that range is found. -/
theorem referencedRanges_quotedFormula (hfirst : IsCell first) (hlast : IsCell last) :
    referencedRanges (quotedFormula (first ++ [':'] ++ last)) =
      [(String.ofList first, String.ofList last)] := by
  have hgap : Gap [] := forall_mem_of_all rfl
  have hrange := rangesIn_range hfirst hgap hgap hlast
  rw [List.append_nil, List.append_nil, if_pos ⟨rfl, rfl⟩,
    ← searchesTokens_rangesIn.quotedFormula] at hrange
  exact congrArg (fun l => (l.map endTexts).eraseDups) hrange

theorem mem_referencedCells_quotedFormula (hfirst : IsCell first) (hlast : IsCell last)
    {a : String} (h : a ∈ referencedCells (quotedFormula (first ++ [':'] ++ last))) :
    a = String.ofList first ∨ a = String.ofList last := by
  have hgap : Gap [] := forall_mem_of_all rfl
  have hrange := cellsIn_range hfirst hgap hgap hlast
  rw [List.append_nil, List.append_nil, ← searchesTokens_cellsIn.quotedFormula] at hrange
  have ha : a ∈ (cellsIn _).map String.ofList := List.mem_eraseDups.mp h
  rw [hrange] at ha
  simpa using ha

end Formula

namespace Session

/-- The digits of a row number with one more than are read. -/
def longRow : List Char :=
  '1' :: List.replicate Number.maxDigits '0'

theorem isDigits_longRow : IsDigits longRow := by
  refine ⟨List.cons_ne_nil _ _, fun c hc => ?_⟩
  rcases List.mem_cons.mp hc with rfl | hc
  · rfl
  · rw [List.eq_of_mem_replicate hc]
    rfl

theorem not_rowReadable_longRow : ¬ Address.RowReadable (String.ofList ('B' :: longRow)) := by
  intro h
  have hsplit : Address.split? ('B' :: longRow) = some (['B'], longRow) :=
    Address.split?_eq_some_iff.mpr ⟨rfl, List.cons_ne_nil _ _, forall_mem_of_all (by decide),
      isDigits_longRow.2, '1', _, rfl, by decide⟩
  have hlength := h (['B'], longRow) (by rw [String.toList_ofList, hsplit, Option.mem_some_iff])
  rw [longRow, List.length_cons, List.length_replicate] at hlength
  omega

/-- One formula, which is a text in quotes that has the form of a range. -/
def quotedRange : Sheet :=
  .ofEntries [("A1", .text (quotedFormula (['B', '1'] ++ [':'] ++ 'B' :: longRow)))]

/-- Evaluating a text in quotes fails as a whole if it looks like a range with too long a row. -/
theorem not_alwaysShown_quotedRange : ¬ AlwaysShown quotedRange := by
  intro h
  have hfirst : IsCell ['B', '1'] := ⟨['B'], ['1'], rfl, List.cons_ne_nil _ _,
    forall_mem_of_all (by decide), List.cons_ne_nil _ _, forall_mem_of_all (by decide)⟩
  have hlast : IsCell ('B' :: longRow) := ⟨['B'], longRow, rfl, List.cons_ne_nil _ _,
    forall_mem_of_all (by decide), isDigits_longRow⟩
  have hformula : quotedRange.formula? "A1" =
      some (quotedFormula (['B', '1'] ++ [':'] ++ 'B' :: longRow)) := formula?_quotedFormula _
  have hranges := (h.legible (Sheet.capital_ofEntries _)).ranges "A1" _ hformula
  rw [referencedRanges_quotedFormula hfirst hlast] at hranges
  have hnot : ¬ Sheet.CornersReadable (String.ofList ['B', '1'], String.ofList ('B' :: longRow)) :=
    fun hcorners => not_rowReadable_longRow hcorners.2
  -- the cell of the formula has to be compared with the range
  rcases hranges [] _ [] rfl hnot "A1" (Sheet.mem_formulas hformula) (by decide) with hin | hcovered
  · rcases mem_referencedCells_quotedFormula hfirst hlast hin with hB | hB
    · exact absurd hB (by decide)
    · have hhead : "A1".toList.head? = some 'B' := by
        rw [hB, String.toList_ofList]
        rfl
      exact absurd hhead (by decide)
  · obtain ⟨_, hc, _⟩ := hcovered
    exact List.not_mem_nil hc

end Session

end Worksheet
