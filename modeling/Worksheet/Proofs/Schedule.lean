import Worksheet.Proofs.Affected

/-!
# The order of evaluation after a change

After a change, the formulas that read the changed cell, directly or through others, are listed
each behind those that it reads, as far as that is possible.  A cell that a cycle leads to has no
such place: no cell of a cycle can be taken, so neither can one that reads such a cell, directly or
through others.  These cells are left over, and they are listed last in row-major order.

So what is listed out of order are the cells that a cycle leads to, and not just those on cycles.
-/

namespace Worksheet

open Relation

/-! ## Cycles in a finite relation -/

/-- In a list in which everything has something before it, everything has a cycle before it. -/
theorem exists_cycle_of_forall_exists {α : Type} {R : α → α → Prop} {l : List α}
    (h : ∀ x ∈ l, ∃ y ∈ l, R y x) {x : α} (hx : x ∈ l) :
    ∃ c ∈ l, TransGen R c c ∧ ReflTransGen R c x := by
  by_contra hnone
  -- without a cycle the relation is well-founded on what leads to `x`, but nothing comes first
  let S := {y // y ∈ l ∧ ReflTransGen R y x}
  have : Finite {y // y ∈ l} := (List.finite_toSet l).to_subtype
  have : Finite S := Finite.of_injective (fun y : S => (⟨y.1, y.2.1⟩ : {y // y ∈ l}))
    fun _ _ hyz => Subtype.ext (Subtype.mk.inj hyz)
  have : IsTrans S fun y z => TransGen R y z := ⟨fun _ _ _ h h' => h.trans h'⟩
  have : Std.Irrefl fun y z : S => TransGen R y z :=
    ⟨fun c hc => hnone ⟨c, c.2.1, hc, c.2.2⟩⟩
  have hwf : WellFounded fun y z : S => TransGen R y z := Finite.wellFounded_of_trans_of_irrefl _
  obtain ⟨first, _, hfirst⟩ := hwf.has_min Set.univ ⟨⟨x, hx, .refl⟩, trivial⟩
  obtain ⟨y, hy, hstep⟩ := h first first.2.1
  exact hfirst ⟨y, hy, .head hstep first.2.2⟩ trivial (.single hstep)

namespace Sheet

variable {s : Sheet}

/-! ## Arranging cells that wait for one another -/

/-- What comes of arranging cells that wait for one another: those in `taken` come behind all that
they wait for, and each of the others waits for another one of them. -/
structure Arranged (waiting : List (String × List String)) (taken : List String) : Prop where
  arrange_eq : arrange waiting = taken ++ (waiting.map (·.1)).filter (· ∉ taken)
  nodup : taken.Nodup
  subset : taken ⊆ waiting.map (·.1)
  ordered : ∀ e ∈ waiting, e.1 ∈ taken → ∀ b ∈ e.2,
    b ∈ taken ∧ taken.idxOf b < taken.idxOf e.1
  stuck : ∀ e ∈ waiting, e.1 ∉ taken → ∃ b ∈ e.2, b ∉ taken

theorem mem_release {cell : String} {waiting : List (String × List String)}
    {e : String × List String} (he : e ∈ waiting) (hne : e.1 ≠ cell) :
    (e.1, e.2.filter (· ≠ cell)) ∈ release cell waiting :=
  List.mem_map.mpr ⟨e, List.mem_filter.mpr ⟨he, by simpa using hne⟩, rfl⟩

theorem Arranged.stop {waiting : List (String × List String)}
    (h : waiting.find? (·.2.isEmpty) = none) : Arranged waiting [] where
  arrange_eq := by
    rw [arrange]
    split
    · simp
    · next heq => exact absurd (h.symm.trans heq) nofun
  nodup := List.nodup_nil
  subset := List.nil_subset _
  ordered := fun _ _ he => absurd he List.not_mem_nil
  stuck := by
    intro e he _
    have hne := List.find?_eq_none.mp h e he
    obtain ⟨b, hb⟩ := List.exists_mem_of_ne_nil e.2 (by simpa using hne)
    exact ⟨b, hb, List.not_mem_nil⟩

/-- Taking a cell that waits for no other one. -/
theorem Arranged.take {waiting : List (String × List String)} {cell : String}
    {others taken : List String} (hd : (waiting.map (·.1)).Nodup)
    (h : waiting.find? (·.2.isEmpty) = some (cell, others))
    (hrest : Arranged (release cell waiting) taken) : Arranged waiting (cell :: taken) := by
  have hcell : (cell, others) ∈ waiting := List.mem_of_find?_eq_some h
  have hnot : cell ∉ taken := fun hin => by
    have hin := hrest.subset hin
    rw [map_fst_release] at hin
    simpa using (List.mem_filter.mp hin).2
  -- an entry is the one of the cell, which waits for none, or one that is still to be arranged
  have hentry : ∀ e ∈ waiting, e.1 = cell → e.2 = [] := by
    intro e he heq
    have hsame : e = (cell, others) := List.inj_on_of_nodup_map hd he hcell heq
    rw [hsame]
    simpa using List.find?_some h
  refine ⟨?_, List.nodup_cons.mpr ⟨hnot, hrest.nodup⟩, ?_, ?_, ?_⟩
  · rw [arrange]
    split
    · next heq => exact absurd (h.symm.trans heq) nofun
    · next heq =>
        obtain rfl := congrArg Prod.fst (Option.some.inj (h.symm.trans heq))
        rw [hrest.arrange_eq, map_fst_release, List.filter_filter, List.cons_append]
        simp [Bool.and_comm]
  · refine List.cons_subset.mpr ⟨List.mem_map.mpr ⟨_, hcell, rfl⟩, fun b hb => ?_⟩
    have hb := hrest.subset hb
    rw [map_fst_release] at hb
    exact (List.mem_filter.mp hb).1
  · intro e he htaken b hb
    by_cases heq : e.1 = cell
    · rw [hentry e he heq] at hb
      exact absurd hb List.not_mem_nil
    have htaken := (List.mem_cons.mp htaken).resolve_left heq
    rw [List.idxOf_cons_ne _ (Ne.symm heq)]
    by_cases hbc : b = cell
    · subst hbc
      rw [List.idxOf_cons_self]
      exact ⟨List.mem_cons_self, Nat.succ_pos _⟩
    · obtain ⟨hmem, hlt⟩ := hrest.ordered _ (mem_release he heq) htaken b
        (List.mem_filter.mpr ⟨hb, by simpa using hbc⟩)
      rw [List.idxOf_cons_ne _ (Ne.symm hbc)]
      exact ⟨List.mem_cons_of_mem _ hmem, Nat.succ_lt_succ hlt⟩
  · intro e he hleft
    obtain ⟨hne, hleft⟩ := not_or.mp (mt List.mem_cons.mpr hleft)
    obtain ⟨b, hb, hstuck⟩ := hrest.stuck _ (mem_release he hne) hleft
    obtain ⟨hb, hbc⟩ := List.mem_filter.mp hb
    exact ⟨b, hb, fun hin => (List.mem_cons.mp hin).elim (by simpa using hbc) hstuck⟩

theorem exists_arranged (waiting : List (String × List String)) :
    (waiting.map (·.1)).Nodup → ∃ taken, Arranged waiting taken := by
  induction waiting using arrange.induct with
  | case1 waiting h => exact fun _ => ⟨[], .stop h⟩
  | case2 waiting cell others h ih =>
      intro hd
      obtain ⟨taken, hrest⟩ := ih (by
        rw [map_fst_release]
        exact hd.filter _)
      exact ⟨cell :: taken, hrest.take hd h⟩

/-! ## The affected cells -/

/-- Whether a formula is found as a reader of a cell. -/
def Feeds (s : Sheet) (a b : String) : Prop :=
  ∃ readers, s.dependents a = .ok readers ∧ b ∈ readers

theorem feeds_iff {a b : String} {readers : List String} (h : s.dependents a = .ok readers) :
    s.Feeds a b ↔ b ∈ readers := by
  constructor
  · rintro ⟨readers', h', hb⟩
    obtain rfl := Except.ok.inj (h.symm.trans h')
    exact hb
  · exact fun hb => ⟨readers, h, hb⟩

theorem feeds_upper {a b : String} : s.Feeds (Text.upper a) b ↔ s.Feeds a b := by
  unfold Feeds dependents
  rw [Text.upper_upper]

theorem transGen_feeds_upper {a b : String} :
    TransGen s.Feeds (Text.upper a) b ↔ TransGen s.Feeds a b := by
  rw [TransGen.head'_iff, TransGen.head'_iff]
  simp only [feeds_upper]

/-- Readers are formulas. -/
theorem mem_formulas_of_feeds {a b : String} (h : s.Feeds a b) : b ∈ s.formulas := by
  obtain ⟨readers, h, hb⟩ := h
  unfold dependents at h
  obtain ⟨_, _, h⟩ := exists_of_bind h
  obtain ⟨unsorted, hu, h⟩ := exists_of_bind h
  exact ((mem_filterM hu b).mp ((Address.perm_of_sortRowMajor h).mem_iff.mp hb)).1

theorem nodup_formulas (s : Sheet) : s.formulas.Nodup :=
  s.cells.distinct.filter _

theorem nodup_of_affectedBy (s : Sheet) (rest queue : List String) : ∀ {found : List String},
    rest.Nodup → s.affectedBy rest queue = .ok found → found.Nodup := by
  induction rest, queue using affectedBy.induct with
  | case1 rest =>
      intro found _ h
      rw [affectedBy] at h
      rw [← Except.ok.inj h]
      exact List.nodup_nil
  | case2 rest address queue ih =>
      intro found hd h
      rw [affectedBy] at h
      obtain ⟨readers, _, h⟩ := exists_of_bind h
      obtain ⟨later, hlater, h⟩ := exists_of_bind h
      rw [← Except.ok.inj h]
      refine (hd.filter _).append (ih readers (hd.filter _) hlater) fun x hx hlate => ?_
      exact (mem_notAmong.mp (subset_of_affectedBy s _ _ hlater hlate)).2 (mem_among.mp hx).2

/-- What is found reads a cell of the queue, directly or through others. -/
theorem transGen_of_affectedBy (s : Sheet) (rest queue : List String) : ∀ {found : List String},
    s.affectedBy rest queue = .ok found → ∀ x ∈ found, ∃ b ∈ queue, TransGen s.Feeds b x := by
  induction rest, queue using affectedBy.induct with
  | case1 rest =>
      intro found h x hx
      rw [affectedBy] at h
      rw [← Except.ok.inj h] at hx
      exact absurd hx List.not_mem_nil
  | case2 rest address queue ih =>
      intro found h x hx
      rw [affectedBy] at h
      obtain ⟨readers, hreaders, h⟩ := exists_of_bind h
      obtain ⟨later, hlater, h⟩ := exists_of_bind h
      have hfirst : ∀ y ∈ among readers rest, s.Feeds address y := fun y hy =>
        ⟨readers, hreaders, (mem_among.mp hy).2⟩
      rw [← Except.ok.inj h] at hx
      rcases List.mem_append.mp hx with hx | hx
      · exact ⟨address, List.mem_cons_self, .single (hfirst x hx)⟩
      · obtain ⟨b, hb, hbx⟩ := ih readers hlater x hx
        rcases List.mem_append.mp hb with hb | hb
        · exact ⟨b, List.mem_cons_of_mem _ hb, hbx⟩
        · exact ⟨address, List.mem_cons_self, .head (hfirst b hb) hbx⟩

/-- **The affected cells are those that read the changed one, directly or through others.** -/
theorem mem_affectedBy_iff {a : String} {affected : List String}
    (h : s.affectedBy s.formulas [a] = .ok affected) {x : String} :
    x ∈ affected ↔ TransGen s.Feeds a x := by
  constructor
  · intro hx
    obtain ⟨b, hb, hbx⟩ := transGen_of_affectedBy s _ _ h x hx
    exact List.mem_singleton.mp hb ▸ hbx
  · have hstep : ∀ {b y}, b ∈ [a] ∨ b ∈ affected → s.Feeds b y → y ∈ affected := by
      intro b y hb hby
      obtain ⟨readers, hreaders, hclosed⟩ := affectedBy_closed s _ _ h b hb
      exact hclosed y (mem_formulas_of_feeds hby) ((feeds_iff hreaders).mp hby)
    intro hx
    induction hx with
    | single hax => exact hstep (.inl (List.mem_singleton_self a)) hax
    | tail _ hxy ih => exact hstep (.inr ih) hxy

/-! ## The cells that a cycle leads to -/

/-- Whether a cell is on a cycle of cells that a change affects, or reads such a cycle, directly or
through others. -/
def Blocked (s : Sheet) (a x : String) : Prop :=
  ∃ c, TransGen s.Feeds a c ∧ TransGen s.Feeds c c ∧ ReflTransGen s.Feeds c x

theorem Blocked.tail {a x y : String} (h : s.Blocked a x) (hxy : s.Feeds x y) : s.Blocked a y := by
  obtain ⟨c, hac, hc, hcx⟩ := h
  exact ⟨c, hac, hc, hcx.tail hxy⟩

/-- Where each element comes behind those that it follows, it comes behind all that lead to it. -/
theorem idxOf_lt_of_transGen {R : String → String → Prop} {cells taken : List String}
    (hclosed : ∀ u ∈ cells, ∀ v, R u v → v ∈ cells)
    (h : ∀ u ∈ cells, ∀ v ∈ taken, R u v → u ∈ taken ∧ taken.idxOf u < taken.idxOf v)
    {u v : String} (hu : u ∈ cells) (huv : TransGen R u v) :
    v ∈ taken → u ∈ taken ∧ taken.idxOf u < taken.idxOf v := by
  have hcells : ∀ {w}, TransGen R u w → w ∈ cells := fun hw => by
    induction hw with
    | single huw => exact hclosed u hu _ huw
    | tail _ hwx ih => exact hclosed _ ih _ hwx
  induction huv with
  | single huv => exact fun hv => h u hu _ hv huv
  | tail huw hwv ih =>
      intro hv
      obtain ⟨hw, hlt⟩ := h _ (hcells huw) _ hv hwv
      exact ⟨(ih hw).1, (ih hw).2.trans hlt⟩

/-- Whether all formulas are at addresses of positions. -/
def Placed (s : Sheet) : Prop :=
  ∀ x ∈ s.formulas, Address.WellFormed x

instance (s : Sheet) : Decidable s.Placed :=
  inferInstanceAs (Decidable (∀ x ∈ s.formulas, _))

/-- What is put in order after a change: the affected cells in row-major order, each with those of
them that it reads. -/
structure AffectedRows (s : Sheet) (a : String) (waiting : List (String × List String)) : Prop where
  mem_iff : ∀ x, x ∈ waiting.map (·.1) ↔ TransGen s.Feeds a x
  rowMajor : (waiting.map (·.1)).Pairwise Address.TextPrecedes
  mem_others : ∀ e ∈ waiting, ∀ u, u ∈ e.2 ↔ u ∈ waiting.map (·.1) ∧ s.Feeds u e.1

theorem affectedRows_of_recalcOrder (hplaced : s.Placed) {a : String} {order : List String}
    (h : s.recalcOrder a = .ok order) :
    ∃ waiting, s.AffectedRows a waiting ∧ order = arrange waiting := by
  obtain ⟨affected, haffected, h⟩ := exists_of_bind h
  obtain ⟨readers, hreaders, h⟩ := exists_of_bind h
  obtain ⟨rows, hrows, h⟩ := exists_of_bind h
  have hperm := Address.perm_of_sortRowMajor hrows
  have hkeys : ∀ others : String → List String,
      (rows.map fun v => (v, others v)).map (·.1) = rows := by
    intro others
    rw [List.map_map]
    exact List.map_id rows
  refine ⟨_, ⟨fun x => ?_, ?_, fun e he u => ?_⟩, (Except.ok.inj h).symm⟩
  · rw [hkeys, hperm.mem_iff, mem_affectedBy_iff haffected, transGen_feeds_upper]
  · rw [hkeys]
    refine Address.pairwise_textPrecedes_of_sortRowMajor hrows ?_ fun x hx => ?_
    · exact nodup_of_affectedBy s _ _ (nodup_formulas s) haffected
    · exact hplaced x (subset_of_affectedBy s _ _ haffected hx)
  · obtain ⟨v, _, rfl⟩ := List.mem_map.mp he
    rw [hkeys, hperm.mem_iff]
    constructor
    · intro hu
      obtain ⟨⟨_, targets⟩, hentry, rfl⟩ := List.mem_map.mp hu
      obtain ⟨hentry, hv⟩ := List.mem_filter.mp hentry
      obtain ⟨w, hw, hentry⟩ := (mem_mapM hreaders _).mp hentry
      obtain ⟨found, hfound, hentry⟩ := exists_of_bind hentry
      obtain ⟨rfl, rfl⟩ := Prod.mk.inj (Except.ok.inj hentry)
      exact ⟨hw, (feeds_iff hfound).mpr (of_decide_eq_true hv)⟩
    · rintro ⟨hu, targets, htargets, hv⟩
      refine List.mem_map.mpr ⟨(u, targets), List.mem_filter.mpr ⟨?_, decide_eq_true hv⟩, rfl⟩
      exact (mem_mapM hreaders _).mpr ⟨u, hu, by rw [htargets]; rfl⟩

/-- The cells that are left over when the affected cells are put in order are those that a cycle
leads to. -/
theorem AffectedRows.not_mem_taken_iff {a : String} {waiting : List (String × List String)}
    (h : s.AffectedRows a waiting) {taken : List String} (harranged : Arranged waiting taken)
    {x : String} (hx : x ∈ waiting.map (·.1)) : x ∉ taken ↔ s.Blocked a x := by
  constructor
  · -- a cell that is left over reads another one, and so on, until one comes back
    intro hleft
    have hstuck : ∀ x ∈ (waiting.map (·.1)).filter (· ∉ taken),
        ∃ y ∈ (waiting.map (·.1)).filter (· ∉ taken), s.Feeds y x := by
      intro x hx
      obtain ⟨hx, hleft⟩ := List.mem_filter.mp hx
      obtain ⟨e, he, rfl⟩ := List.mem_map.mp hx
      obtain ⟨y, hy, hleft⟩ := harranged.stuck e he (of_decide_eq_true hleft)
      obtain ⟨hy, hfeeds⟩ := (h.mem_others e he y).mp hy
      exact ⟨y, List.mem_filter.mpr ⟨hy, decide_eq_true hleft⟩, hfeeds⟩
    obtain ⟨c, hc, hcycle, hcx⟩ := exists_cycle_of_forall_exists hstuck
      (List.mem_filter.mpr ⟨hx, decide_eq_true hleft⟩)
    exact ⟨c, (h.mem_iff c).mp (List.mem_filter.mp hc).1, hcycle, hcx⟩
  · rintro ⟨c, hac, hcycle, hcx⟩ htaken
    have hbefore : ∀ {u v}, u ∈ waiting.map (·.1) → TransGen s.Feeds u v → v ∈ taken →
        u ∈ taken ∧ taken.idxOf u < taken.idxOf v :=
      idxOf_lt_of_transGen
        (fun u hu v huv => (h.mem_iff v).mpr (((h.mem_iff u).mp hu).tail huv))
        fun u hu v hv huv => by
          obtain ⟨e, he, rfl⟩ := List.mem_map.mp (harranged.subset hv)
          exact harranged.ordered e he hv u ((h.mem_others e he u).mpr ⟨hu, huv⟩)
    have hc : c ∈ waiting.map (·.1) := (h.mem_iff c).mpr hac
    have hctaken : c ∈ taken := by
      rcases reflTransGen_iff_eq_or_transGen.mp hcx with rfl | hcx
      · exact htaken
      · exact (hbefore hc hcx htaken).1
    exact Nat.lt_irrefl _ (hbefore hc hcycle hctaken).2

/-- An order of the cells that a change affects: first those that no cycle leads to, each behind all
affected cells that it reads, and then those that a cycle leads to, row-major. -/
structure Scheduled (s : Sheet) (a : String) (order free blocked : List String) : Prop where
  order_eq : order = free ++ blocked
  nodup : order.Nodup
  formulas : order ⊆ s.formulas
  mem_iff : ∀ x, x ∈ order ↔ TransGen s.Feeds a x
  mem_blocked : ∀ x, x ∈ blocked ↔ s.Blocked a x
  ordered : ∀ u ∈ order, ∀ v ∈ free, s.Feeds u v → order.idxOf u < order.idxOf v
  rowMajor : blocked.Pairwise Address.TextPrecedes

theorem exists_scheduled (hplaced : s.Placed) {a : String} {order : List String}
    (h : s.recalcOrder a = .ok order) : ∃ free blocked, s.Scheduled a order free blocked := by
  obtain ⟨waiting, hrows, rfl⟩ := affectedRows_of_recalcOrder hplaced h
  have hd := Address.nodup_of_pairwise_textPrecedes hrows.rowMajor
  obtain ⟨taken, harranged⟩ := exists_arranged waiting hd
  have hmem : ∀ x, x ∈ arrange waiting ↔ TransGen s.Feeds a x := fun x => by
    rw [mem_arrange, hrows.mem_iff]
  refine ⟨taken, _, harranged.arrange_eq, ?_, fun x hx => ?_, hmem, fun x => ?_,
    fun u hu v hv huv => ?_, hrows.rowMajor.filter _⟩
  · rw [harranged.arrange_eq]
    refine harranged.nodup.append (hd.filter _) fun x hx hleft => ?_
    exact of_decide_eq_true (List.mem_filter.mp hleft).2 hx
  · obtain ⟨_, _, hfeeds⟩ := TransGen.tail'_iff.mp ((hmem x).mp hx)
    exact mem_formulas_of_feeds hfeeds
  · rw [List.mem_filter, decide_eq_true_eq]
    constructor
    · rintro ⟨hx, hleft⟩
      exact (hrows.not_mem_taken_iff harranged hx).mp hleft
    · intro hblocked
      obtain ⟨c, hac, _, hcx⟩ := id hblocked
      have hx : x ∈ waiting.map (·.1) := (hrows.mem_iff x).mpr (hac.trans_left hcx)
      exact ⟨hx, (hrows.not_mem_taken_iff harranged hx).mpr hblocked⟩
  · obtain ⟨e, he, rfl⟩ := List.mem_map.mp (harranged.subset hv)
    have hu := (mem_arrange waiting).mp hu
    obtain ⟨hutaken, hlt⟩ := harranged.ordered e he hv u ((hrows.mem_others e he u).mpr ⟨hu, huv⟩)
    rw [harranged.arrange_eq, List.idxOf_append_of_mem hutaken, List.idxOf_append_of_mem hv]
    exact hlt

/-- There is an order whenever the rows of all ranges can be read. -/
theorem Placed.recalcOrder_ok (hplaced : s.Placed) (hranges : s.RangesReadable) {a : String}
    (ha : Address.RowReadable (Text.upper a)) : ∃ order, s.recalcOrder a = .ok order :=
  recalcOrder_ok_of_formulas (fun x hx => (hplaced x hx).upper_eq)
    (fun x hx => (hplaced x hx).rowReadable) hranges ha

/-- **The cells that a change affects are listed in an order in which they can be evaluated**, as
far as there is one: the cells that no cycle leads to come behind all that they read, and the others
come last, row-major. -/
theorem recalcOrder_scheduled (hplaced : s.Placed) (a : String) :
    (s.RangesReadable → Address.RowReadable (Text.upper a) →
      ∃ order, s.recalcOrder a = .ok order) ∧
    ∀ order, s.recalcOrder a = .ok order → ∃ free blocked, s.Scheduled a order free blocked :=
  ⟨fun hranges ha => hplaced.recalcOrder_ok hranges ha, fun _ h => exists_scheduled hplaced h⟩

/-- Two cells on a cycle, one behind it at the front of the sheet, and a diamond beside it. -/
def loopBesideDiamond : Sheet :=
  .ofEntries [("A1", .number (.int 1)), ("B1", .text "=C3+1"), ("C3", .text "=A1+C4"),
    ("C4", .text "=C3"), ("D4", .text "=D2+D3"), ("D2", .text "=A1*2"), ("D3", .text "=SUM(A1:A3)")]

/-- The diamond comes first, and the cell behind the cycle before the cycle. -/
theorem scheduled_loopBesideDiamond :
    loopBesideDiamond.Placed ∧ loopBesideDiamond.RangesReadable ∧
      Address.RowReadable (Text.upper "a1") ∧
      ∃ order free blocked, loopBesideDiamond.recalcOrder "a1" = .ok order ∧
        order = ["D2", "D3", "D4", "B1", "C3", "C4"] ∧
        loopBesideDiamond.Scheduled "a1" order free blocked := by
  have hplaced : loopBesideDiamond.Placed := by decide +kernel
  have hrows : loopBesideDiamond.RowsReadable := by decide +kernel
  have ha : Address.RowReadable (Text.upper "a1") := by decide +kernel
  obtain ⟨hok, hscheduled⟩ := recalcOrder_scheduled hplaced "a1"
  obtain ⟨order, horder⟩ := hok hrows.ranges ha
  obtain ⟨free, blocked, h⟩ := hscheduled order horder
  have hlist : order = ["D2", "D3", "D4", "B1", "C3", "C4"] :=
    Except.ok.inj (horder.symm.trans (by cbv))
  exact ⟨hplaced, hrows.ranges, ha, order, free, blocked, horder, hlist, h⟩

/-! ## What is listed out of order -/

/-- Where later elements follow earlier ones, the places of two elements tell which follows. -/
theorem idxOf_lt_iff_of_pairwise {R : String → String → Prop} (hasymm : ∀ u v, R u v → ¬ R v u)
    {l : List String} (hl : l.Pairwise R) {u v : String} (hu : u ∈ l) (hv : v ∈ l) :
    l.idxOf u < l.idxOf v ↔ R u v := by
  have hlater : ∀ {x y}, x ∈ l → y ∈ l → l.idxOf x < l.idxOf y → R x y := by
    intro x y hx hy hlt
    have hget := List.pairwise_iff_getElem.mp hl _ _ (List.idxOf_lt_length_of_mem hx)
      (List.idxOf_lt_length_of_mem hy) hlt
    rwa [List.getElem_idxOf, List.getElem_idxOf] at hget
  refine ⟨hlater hu hv, fun huv => ?_⟩
  rcases Nat.lt_trichotomy (l.idxOf u) (l.idxOf v) with hlt | heq | hgt
  · exact hlt
  · obtain rfl := (List.idxOf_inj hu).mp heq
    exact absurd huv (hasymm u u huv)
  · exact absurd (hlater hv hu hgt) (hasymm u v huv)

/-- A cell comes behind an affected cell that it reads unless a cycle leads to both and the reader
is first in the sheet. -/
theorem Scheduled.idxOf_lt_iff {a : String} {order free blocked : List String}
    (h : s.Scheduled a order free blocked) {u v : String} (hu : u ∈ order) (hv : v ∈ order)
    (huv : s.Feeds u v) :
    order.idxOf u < order.idxOf v ↔ (s.Blocked a u → Address.TextPrecedes u v) := by
  obtain rfl := h.order_eq
  have hdisjoint : ∀ {x}, x ∈ free → ¬ s.Blocked a x := fun hx hblocked =>
    List.disjoint_of_nodup_append h.nodup hx ((h.mem_blocked _).mpr hblocked)
  rcases List.mem_append.mp hv with hvfree | hvblocked
  · have hfree : ¬ s.Blocked a u := fun hblocked => hdisjoint hvfree (hblocked.tail huv)
    exact ⟨fun _ hblocked => absurd hblocked hfree, fun _ => h.ordered u hu v hvfree huv⟩
  have hvnot : v ∉ free := fun hin => hdisjoint hin ((h.mem_blocked v).mp hvblocked)
  rcases List.mem_append.mp hu with hufree | hublocked
  · refine ⟨fun _ hblocked => absurd hblocked (hdisjoint hufree), fun _ => ?_⟩
    rw [List.idxOf_append_of_mem hufree, List.idxOf_append_of_notMem hvnot]
    exact Nat.lt_of_lt_of_le (List.idxOf_lt_length_of_mem hufree) (Nat.le_add_right _ _)
  · have hunot : u ∉ free := fun hin => hdisjoint hin ((h.mem_blocked u).mp hublocked)
    rw [List.idxOf_append_of_notMem hunot, List.idxOf_append_of_notMem hvnot,
      Nat.add_lt_add_iff_left, idxOf_lt_iff_of_pairwise
        (fun _ _ hxy => Address.TextPrecedes.asymm hxy) h.rowMajor hublocked hvblocked]
    exact ⟨fun hlt _ => hlt, fun himp => himp ((h.mem_blocked u).mp hublocked)⟩

/-- **What is listed in front of a cell that it reads**: a cell before it in the sheet, where a cycle
leads to both, be it on the cycle or not. -/
theorem recalcOrder_before_iff (hplaced : s.Placed) (a : String) :
    (s.RangesReadable → Address.RowReadable (Text.upper a) →
      ∃ order, s.recalcOrder a = .ok order) ∧
    ∀ order, s.recalcOrder a = .ok order → ∀ u ∈ order, ∀ v ∈ order, s.Feeds u v →
      (order.idxOf u < order.idxOf v ↔ (s.Blocked a u → Address.TextPrecedes u v)) := by
  refine ⟨fun hranges ha => hplaced.recalcOrder_ok hranges ha, fun order h u hu v hv huv => ?_⟩
  obtain ⟨free, blocked, hscheduled⟩ := exists_scheduled hplaced h
  exact hscheduled.idxOf_lt_iff hu hv huv

/-- A cell that reads itself, and two cells behind it that come before it in the sheet. -/
def chainBehindLoop : Sheet :=
  .ofEntries [("D1", .text "=D1"), ("B1", .text "=D1"), ("A1", .text "=B1")]

theorem feeds_chainBehindLoop :
    chainBehindLoop.dependents "D1" = .ok ["B1", "D1"] ∧
      chainBehindLoop.dependents "B1" = .ok ["A1"] ∧ chainBehindLoop.dependents "A1" = .ok [] :=
  ⟨by cbv, by cbv, by cbv⟩

/-- The chain behind the cycle is listed backwards, though none of its cells is on a cycle. -/
theorem chainBehindLoop_backwards : chainBehindLoop.Placed ∧ ∃ order,
    chainBehindLoop.recalcOrder "D1" = .ok order ∧ "B1" ∈ order ∧ "A1" ∈ order ∧
      chainBehindLoop.Feeds "B1" "A1" ∧ ¬ TransGen chainBehindLoop.Feeds "A1" "A1" ∧
      ¬ order.idxOf "B1" < order.idxOf "A1" := by
  obtain ⟨_, hB, hA⟩ := feeds_chainBehindLoop
  have horder : chainBehindLoop.recalcOrder "D1" = .ok ["A1", "B1", "D1"] := by cbv
  refine ⟨by decide +kernel, _, horder, by decide, by decide, ?_, fun hcycle => ?_, by decide⟩
  · exact (feeds_iff hB).mpr List.mem_cons_self
  · obtain ⟨x, hx, _⟩ := TransGen.head'_iff.mp hcycle
    exact absurd ((feeds_iff hA).mp hx) List.not_mem_nil

/-- They are listed backwards because the one that reads the other comes first in the sheet. -/
theorem chainBehindLoop_before_iff : chainBehindLoop.Placed ∧ chainBehindLoop.RangesReadable ∧
    Address.RowReadable (Text.upper "D1") ∧ ∃ order,
      chainBehindLoop.recalcOrder "D1" = .ok order ∧ "B1" ∈ order ∧ "A1" ∈ order ∧
        chainBehindLoop.Feeds "B1" "A1" ∧
        (order.idxOf "B1" < order.idxOf "A1" ↔
          (chainBehindLoop.Blocked "D1" "B1" → Address.TextPrecedes "B1" "A1")) := by
  have hplaced : chainBehindLoop.Placed := by decide +kernel
  have hrows : chainBehindLoop.RowsReadable := by decide +kernel
  have ha : Address.RowReadable (Text.upper "D1") := by decide +kernel
  obtain ⟨hok, hbefore⟩ := recalcOrder_before_iff hplaced "D1"
  obtain ⟨order, horder⟩ := hok hrows.ranges ha
  have hlist : order = ["A1", "B1", "D1"] := Except.ok.inj (horder.symm.trans (by cbv))
  have hfeeds : chainBehindLoop.Feeds "B1" "A1" :=
    (feeds_iff feeds_chainBehindLoop.2.1).mpr List.mem_cons_self
  have hB : "B1" ∈ order := by rw [hlist]; decide
  have hA : "A1" ∈ order := by rw [hlist]; decide
  exact ⟨hplaced, hrows.ranges, ha, order, horder, hB, hA, hfeeds,
    hbefore order horder _ hB _ hA hfeeds⟩

end Sheet

end Worksheet
