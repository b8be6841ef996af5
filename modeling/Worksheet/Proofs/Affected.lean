import Worksheet.Proofs.Capitals
import Worksheet.Proofs.Dependents

/-!
# The cells that a change affects

The cells that are evaluated again after a change are all that read the changed cell, directly or
through others.  So the remaining cells read, and name, none but each other.
-/

namespace Worksheet.Sheet

open Formula

variable {s : Sheet}

/-! ## Closure -/

theorem mem_among {others cells : List String} {a : String} :
    a ∈ among others cells ↔ a ∈ cells ∧ a ∈ others := by
  simp [among]

theorem mem_notAmong {others cells : List String} {a : String} :
    a ∈ notAmong others cells ↔ a ∈ cells ∧ a ∉ others := by
  simp [notAmong]

theorem subset_of_affectedBy (s : Sheet) (rest queue : List String) : ∀ {found : List String},
    s.affectedBy rest queue = .ok found → found ⊆ rest := by
  induction rest, queue using affectedBy.induct with
  | case1 rest =>
      intro found h
      rw [affectedBy] at h
      rw [← Except.ok.inj h]
      exact List.nil_subset _
  | case2 rest address queue ih =>
      intro found h
      rw [affectedBy] at h
      obtain ⟨readers, _, h⟩ := exists_of_bind h
      obtain ⟨later, hlater, h⟩ := exists_of_bind h
      rw [← Except.ok.inj h]
      refine List.append_subset.mpr ⟨fun a ha => (mem_among.mp ha).1, fun a ha => ?_⟩
      exact (mem_notAmong.mp (ih readers hlater ha)).1

/-- **The readers of a cell that is affected are affected**, as far as they are looked for. -/
theorem affectedBy_closed (s : Sheet) (rest queue : List String) : ∀ {found : List String},
    s.affectedBy rest queue = .ok found → ∀ b, b ∈ queue ∨ b ∈ found →
      ∃ readers, s.dependents b = .ok readers ∧ ∀ x ∈ rest, x ∈ readers → x ∈ found := by
  induction rest, queue using affectedBy.induct with
  | case1 rest =>
      intro found h b hb
      rw [affectedBy] at h
      obtain rfl := Except.ok.inj h
      exact absurd hb (by simp)
  | case2 rest address queue ih =>
      intro found h b hb
      rw [affectedBy] at h
      obtain ⟨readers, hreaders, h⟩ := exists_of_bind h
      obtain ⟨later, hlater, h⟩ := exists_of_bind h
      obtain rfl : among readers rest ++ later = found := Except.ok.inj h
      have hfirst : ∀ x ∈ rest, x ∈ readers → x ∈ among readers rest ++ later := fun x hx hr =>
        List.mem_append_left _ (mem_among.mpr ⟨hx, hr⟩)
      -- the address itself has its readers among those found first, and all others have waited
      by_cases hwait : b ∈ queue ++ among readers rest ∨ b ∈ later
      · obtain ⟨others, hothers, hclosed⟩ := ih readers hlater b hwait
        refine ⟨others, hothers, fun x hx hr => ?_⟩
        by_cases hxr : x ∈ readers
        · exact hfirst x hx hxr
        · exact List.mem_append_right _ (hclosed x (mem_notAmong.mpr ⟨hx, hxr⟩) hr)
      · have hb : b = address := by
          rcases hb with hb | hb
          · refine (List.mem_cons.mp hb).resolve_right fun hq => hwait (.inl ?_)
            exact List.mem_append_left _ hq
          · rcases List.mem_append.mp hb with hb | hb
            · exact absurd (.inl (List.mem_append_right _ hb)) hwait
            · exact absurd (.inr hb) hwait
        exact ⟨readers, hb ▸ hreaders, hfirst⟩

theorem affectedBy_ok (s : Sheet) (rest queue : List String) :
    (∀ b, b ∈ queue ∨ b ∈ rest → ∃ readers, s.dependents b = .ok readers) →
      ∃ found, s.affectedBy rest queue = .ok found := by
  induction rest, queue using affectedBy.induct with
  | case1 rest =>
      rw [affectedBy]
      exact fun _ => ⟨[], rfl⟩
  | case2 rest address queue ih =>
      intro h
      rw [affectedBy]
      refine ok_bind (h address (.inl List.mem_cons_self)) fun readers _ => ?_
      refine ok_bind (ih readers fun b hb => h b ?_) fun later _ => ⟨_, rfl⟩
      rcases hb with hb | hb
      · rcases List.mem_append.mp hb with hb | hb
        · exact .inl (List.mem_cons_of_mem _ hb)
        · exact .inr (mem_among.mp hb).1
      · exact .inr (mem_notAmong.mp hb).1

/-! ## The order -/

theorem map_fst_release (cell : String) (waiting : List (String × List String)) :
    (release cell waiting).map (·.1) = (waiting.map (·.1)).filter (· ≠ cell) := by
  rw [release, List.map_map, List.filter_map]
  rfl

/-- No cell is lost or added when cells are put in order. -/
theorem mem_arrange (waiting : List (String × List String)) {a : String} :
    a ∈ arrange waiting ↔ a ∈ waiting.map (·.1) := by
  induction waiting using arrange.induct with
  | case1 waiting h =>
      rw [arrange]
      split
      · exact Iff.rfl
      · next heq => exact absurd (h.symm.trans heq) nofun
  | case2 waiting cell others h ih =>
      have hcell : cell ∈ waiting.map (·.1) :=
        List.mem_map.mpr ⟨_, List.mem_of_find?_eq_some h, rfl⟩
      rw [arrange]
      split
      · next heq => exact absurd (h.symm.trans heq) nofun
      · next heq =>
          obtain rfl := congrArg Prod.fst (Option.some.inj (h.symm.trans heq))
          rw [List.mem_cons, ih, map_fst_release, List.mem_filter, decide_eq_true_eq]
          constructor
          · rintro (rfl | ⟨ha, _⟩)
            · exact hcell
            · exact ha
          · exact fun ha => (em (a = cell)).imp id fun hne => ⟨ha, hne⟩

theorem exists_affected_of_recalcOrder {a : String} {order : List String}
    (h : s.recalcOrder a = .ok order) : ∃ affected,
      s.affectedBy s.formulas [Text.upper a] = .ok affected ∧ ∀ x, x ∈ order ↔ x ∈ affected := by
  obtain ⟨affected, haffected, h⟩ := exists_of_bind h
  obtain ⟨readers, _, h⟩ := exists_of_bind h
  obtain ⟨rows, hrows, h⟩ := exists_of_bind h
  refine ⟨affected, haffected, fun x => ?_⟩
  rw [← Except.ok.inj h, mem_arrange, List.map_map]
  show x ∈ rows.map id ↔ _
  rw [List.map_id, (Address.perm_of_sortRowMajor hrows).mem_iff]

/-- There is an order whenever the rows of formulas and of their ranges can be read. -/
theorem recalcOrder_ok_of_formulas (hcap : ∀ b ∈ s.formulas, Text.upper b = b)
    (hformulas : ∀ b ∈ s.formulas, Address.RowReadable b) (hranges : s.RangesReadable) {a : String}
    (ha : Address.RowReadable (Text.upper a)) : ∃ order, s.recalcOrder a = .ok order := by
  have hreaders : ∀ b ∈ s.formulas, ∃ readers, s.dependents b = .ok readers := fun b hb =>
    dependents_ok_of_formulas hformulas hranges ((hcap b hb).symm ▸ hformulas b hb)
  have hfirst : ∃ readers, s.dependents (Text.upper a) = .ok readers :=
    dependents_ok_of_formulas hformulas hranges ((Text.upper_upper a).symm ▸ ha)
  obtain ⟨affected, haffected⟩ := affectedBy_ok s s.formulas [Text.upper a] fun b hb => by
    rcases hb with hb | hb
    · exact List.mem_singleton.mp hb ▸ hfirst
    · exact hreaders b hb
  have hsub := subset_of_affectedBy s _ _ haffected
  refine ok_bind ⟨affected, haffected⟩ fun found hfound => ?_
  obtain rfl := Except.ok.inj (haffected.symm.trans hfound)
  refine ok_bind (mapM_ok fun b hb => ok_bind (hreaders b (hsub hb)) fun _ _ => ⟨_, rfl⟩)
    fun _ _ => ok_bind ?_ fun _ _ => ⟨_, rfl⟩
  exact Address.sortRowMajor_ok fun b hb => hformulas b (hsub hb)

/-- There is an order whenever all row numbers can be read. -/
theorem recalcOrder_ok (hcap : s.Capital) (hrows : s.RowsReadable) {a : String}
    (ha : Address.RowReadable (Text.upper a)) : ∃ order, s.recalcOrder a = .ok order :=
  recalcOrder_ok_of_formulas (fun b hb => hcap b (List.mem_filter.mp hb).1)
    (fun b hb => hrows.keys b (List.mem_filter.mp hb).1) hrows.ranges ha

/-! ## The remaining cells -/

/-- Some cells without a given one, which read and name none but each other. -/
structure ClosedWithout (s : Sheet) (a : String) (cells : String → Prop) : Prop where
  ne : ∀ y, cells y → y ≠ a
  reads : ∀ y text e b, cells y → s.formula? y = some text → parse text = .ok e → e.Reads b →
    cells b
  names : ∀ y text b, cells y → s.formula? y = some text →
    (b ∈ referencedCells text ∨ ∃ corners ∈ referencedRanges text, Covers corners b) → cells b

/-- Whether no formula of the sheet has a range with blanks around its colon. -/
def WritesCompact (s : Sheet) : Prop :=
  ∀ y text e, s.formula? y = some text → parse text = .ok e →
    WrittenAs .compact e (Text.trimBlanks text.toList)

/-- Formulas without any blanks have none around a colon. -/
theorem writesCompact_of_blankless
    (h : ∀ y ∈ s.cells.keys, ∀ text ∈ s.formula? y, text.toList.any isGap = false) :
    s.WritesCompact := fun y text _ hf hp =>
  writtenAs_compact (written_of_parse hp)
    (List.any_eq_false.mp (h y (mem_keys_of_formula? hf) text hf))

/-- **What a change does not affect reads and names only what it does not affect.** -/
theorem closedWithout_recalcOrder (hcap : s.Capital) (hcompact : s.WritesCompact) {a : String}
    {order : List String} (h : s.recalcOrder a = .ok order) :
    s.ClosedWithout (Text.upper a) fun y => y ≠ Text.upper a ∧ y ∉ order := by
  obtain ⟨affected, haffected, hmem⟩ := exists_affected_of_recalcOrder h
  have hsub := subset_of_affectedBy s _ _ haffected
  -- a formula that is found as a reader of the cell or of an affected one is affected
  have hclosed : ∀ y text b, s.formula? y = some text → ¬ (b ≠ Text.upper a ∧ b ∉ order) →
      (∀ readers, s.dependents b = .ok readers → Text.upper b = b → y ∈ readers) → y ∈ order := by
    intro y text b hf hb hfound
    have hb : b ∈ [Text.upper a] ∨ b ∈ affected := by
      rw [hmem] at hb
      simpa [or_iff_not_imp_left] using hb
    obtain ⟨readers, hreaders, hin⟩ := affectedBy_closed s _ _ haffected b hb
    have hupper : Text.upper b = b := by
      rcases hb with hb | hb
      · rw [List.mem_singleton.mp hb]
        exact Text.upper_upper a
      · exact hcap b (List.mem_filter.mp (hsub hb)).1
    exact (hmem y).mpr (hin y (mem_formulas hf) (hfound readers hreaders hupper))
  refine ⟨fun y hy => hy.1, fun y text e b hy hf hp hb => ?_, fun y text b hy hf hb => ?_⟩
  · by_contra hnot
    refine hy.2 (hclosed y text b hf hnot fun readers hreaders hupper => ?_)
    exact mem_dependents_of_reads hreaders hf hp (hupper.symm ▸ hb)
      (.inr (hcompact y text e hf hp))
  · by_contra hnot
    refine hy.2 (hclosed y text b hf hnot fun readers hreaders hupper => ?_)
    exact (mem_dependents_iff hreaders hf).mpr (hupper.symm ▸ hb)

end Worksheet.Sheet
