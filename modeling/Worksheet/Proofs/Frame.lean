import Worksheet.Proofs.Affected
import Worksheet.Proofs.Edits
import Worksheet.Proofs.Questions
import Worksheet.Proofs.References

/-!
# What an edit leaves as it is

Two sheets that differ in one cell are evaluated side by side, from cells that read and name neither
this cell nor any that do.  The two passes stay the same.  The sheets need not ask for the same
cells: a range is walked cell by cell or looked up among the keys, and which of the two depends on
how many keys there are.  But the cells that only one of them asks for hold nothing.
-/

namespace Worksheet

open Formula Dialogue

/-- Two passes over a sheet with the same outcomes, of cells that hold formulas, and with the same
cycles.  Their sources of random numbers can be any. -/
structure Pass.Matches (s : Sheet) (p q : Pass) : Prop where
  results : p.results = q.results
  cycles : p.cycles = q.cycles
  formulas : ∀ e ∈ p.results, e.1 ∈ s.formulas

namespace Pass.Matches

variable {s : Sheet} {p q : Pass} {a : String}

theorem find?_eq (h : p.Matches s q) (a : String) : p.find? a = q.find? a :=
  congrArg (List.lookup a) h.results

theorem find?_eq_none (h : p.Matches s q) (ha : a ∉ s.formulas) : p.find? a = none :=
  List.lookup_eq_none_iff.mpr fun e he =>
    bne_iff_ne.mpr fun heq => ha (heq ▸ h.formulas e he)

theorem recordCycle (h : p.Matches s q) (path : List String) :
    (p.recordCycle path).Matches s (q.recordCycle path) :=
  ⟨h.results, congrArg (· ++ [path]) h.cycles, h.formulas⟩

theorem recordOutcome (h : p.Matches s q) (ha : a ∈ s.formulas) (o : Outcome) :
    (Pass.recordOutcome a o p).1 = (Pass.recordOutcome a o q).1 ∧
      (Pass.recordOutcome a o p).2.Matches s (Pass.recordOutcome a o q).2 := by
  have heq : (Pass.recordOutcome a o p).1 = (Pass.recordOutcome a o q).1 := by
    unfold Pass.recordOutcome
    rw [h.cycles]
  refine ⟨heq, ⟨?_, h.cycles, ?_⟩⟩
  · show (a, (Pass.recordOutcome a o p).1) :: p.results =
      (a, (Pass.recordOutcome a o q).1) :: q.results
    rw [heq, h.results]
  · intro e he
    rcases List.mem_cons.mp he with rfl | he
    · exact ha
    · exact h.formulas e he

end Pass.Matches

namespace Sheet

variable {a b : String} {s t : Sheet} {cells : String → Prop} {stack : List String}

/-- A cell that is absent answers that it holds nothing, and leaves the pass as it is. -/
theorem answerWhile_of_absent (hb : b ∉ s.cells.keys) (hstack : b ∉ stack) {p : Pass}
    (hp : p.find? b = none) (depth : Nat) :
    (s.answerWhile stack b depth).run p = (.ok .null, p) := by
  have hf : s.formula? b = none := by
    cases hf : s.formula? b with
    | none => rfl
    | some text => exact absurd (mem_keys_of_formula? hf) hb
  have hout : ¬ s.outOfReach depth b p := fun hout => by
    simpa [hf] using (outOfReach_iff.mp hout).2.2
  rw [answerWhile_of_not_mem hstack hout, outcomeOf_run, hp, hf]
  dsimp only
  rw [Cells.get_of_not_mem_keys hb]
  rfl

/-! ## Evaluating cells side by side -/

/-- Whether two computations, started from passes that match, have the same result and leave passes
that match. -/
def Alongside (s : Sheet) {α : Type} (x y : StateM Pass α) : Prop :=
  ∀ p q : Pass, p.Matches s q →
    (x.run p).1 = (y.run q).1 ∧ (x.run p).2.Matches s (y.run q).2

theorem Alongside.answerWhile {depth : Nat} (hlimit : t.limit = s.limit)
    (hf : t.formula? b = s.formula? b)
    (ih : ∀ fresh : b ∉ stack,
      s.Alongside (s.outcomeOf stack depth b fresh) (t.outcomeOf stack depth b fresh)) :
    s.Alongside (s.answerWhile stack b depth) (t.answerWhile stack b depth) := by
  intro p q hpq
  by_cases hstack : b ∈ stack
  · rw [answerWhile_of_mem s hstack, answerWhile_of_mem t hstack]
    exact ⟨rfl, hpq.recordCycle _⟩
  have hreach : t.outOfReach depth b q = s.outOfReach depth b p := by
    unfold outOfReach Setting.breaksOff Setting.exceeds setting
    rw [hpq.find?_eq, hf, hlimit]
  by_cases hout : s.outOfReach depth b p
  · rw [answerWhile_of_outOfReach hstack hout,
      answerWhile_of_outOfReach hstack (by rwa [hreach])]
    exact ⟨rfl, hpq⟩
  · rw [answerWhile_of_not_mem hstack hout, answerWhile_of_not_mem hstack (by rwa [hreach])]
    obtain ⟨heq, hmatch⟩ := ih hstack p q hpq
    exact ⟨congrArg (readOutcome b) heq, hmatch⟩

theorem hold_read (s : Sheet) (stack : List String) (b : String) (depth : Nat)
    (next : Except Failure Value → Dialogue Outcome) (p : Pass) :
    (s.hold stack (.read b depth next)).run p =
      (s.hold stack (next ((s.answerWhile stack b depth).run p).1)).run
        ((s.answerWhile stack b depth).run p).2 :=
  rfl

/-- Whether no formula of the sheet can come to draw a random number. -/
def NeverDraws (s : Sheet) : Prop :=
  ∀ y text depth, s.formula? y = some text → (outcomeAt s.setting depth text).Drawless

theorem neverDraws_of_callees
    (h : ∀ y ∈ s.cells.keys, ∀ text ∈ s.formula? y, ∀ f ∈ callees text, ∀ g, f ≠ .random g) :
    s.NeverDraws := fun y text depth hf =>
  respected_drawless.outcomeAt_self depth text (h y (mem_keys_of_formula? hf) text hf)

/-- Two sheets that differ in one cell, and some cells that read and name neither this one nor any
other than themselves. -/
structure Framed (a : String) (s t : Sheet) (cells : String → Prop) : Prop where
  same : SameBut a s t
  closed : s.ClosedWithout a cells
  rows : s.RowsReadable
  row : Address.RowReadable a
  draws : s.NeverDraws

namespace Framed

theorem ne (h : Framed a s t cells) (hb : cells b) : b ≠ a :=
  h.closed.ne b hb

theorem formula?_eq (h : Framed a s t cells) (hb : cells b) : t.formula? b = s.formula? b :=
  h.same.formula?_eq (h.ne hb)

theorem mem_keys_iff (h : Framed a s t cells) (hb : cells b) :
    b ∈ s.cells.keys ↔ b ∈ t.cells.keys :=
  h.same.mem_keys_iff (h.ne hb)

theorem rowReadable (h : Framed a s t cells) (hb : b ∈ t.cells.keys) : Address.RowReadable b := by
  by_cases hne : b = a
  · exact hne ▸ h.row
  · exact h.rows.keys b ((h.same.mem_keys_iff hne).mpr hb)

/-- The dialogues of a formula in the two sheets are held side by side. -/
theorem hold (h : Framed a s t cells) (hstack : ∀ b ∈ stack, b ∈ s.formulas)
    (ih : ∀ b depth (fresh : b ∉ stack), cells b →
      s.Alongside (s.outcomeOf stack depth b fresh) (t.outcomeOf stack depth b fresh))
    {d d' : Dialogue Outcome} (hd : d.AlikeOver s.cells.keys d')
    (hcells : ∀ b, d.Asks anyAnswer b ∨ d'.Asks anyAnswer b → cells b) :
    s.Alongside (s.hold stack d) (t.hold stack d') := by
  induction hd with
  | done o => exact fun p q hpq => ⟨rfl, hpq⟩
  | @read b depth next next' _ ihd =>
      intro p q hpq
      have hb : cells b := hcells b (.inl ⟨_, _, .refl⟩)
      obtain ⟨heq, hmatch⟩ := Alongside.answerWhile
        (congrArg Setting.limit h.same.setting) (h.formula?_eq hb)
        (fun fresh => ih b depth fresh hb) p q hpq
      rw [hold_read, hold_read, heq]
      refine ihd _ (fun c hc => hcells c ?_) _ _ hmatch
      exact hc.imp (Asks.head (.read trivial)) (Asks.head (.read trivial))
  | @left b depth next d hb _ ihd =>
      intro p q hpq
      have hformula : b ∉ s.formulas := fun hf => hb (List.mem_filter.mp hf).1
      rw [hold_read, answerWhile_of_absent hb (fun hin => hformula (hstack b hin))
        (hpq.find?_eq_none hformula)]
      exact ihd (fun c hc => hcells c (hc.imp (Asks.head (.read trivial)) id)) p q hpq
  | @right b depth next d hb _ ihd =>
      intro p q hpq
      have hformula : b ∉ s.formulas := fun hf => hb (List.mem_filter.mp hf).1
      have habsent : b ∉ t.cells.keys := fun hin =>
        hb ((h.mem_keys_iff (hcells b (.inr ⟨_, _, .refl⟩))).mpr hin)
      rw [hold_read, answerWhile_of_absent habsent (fun hin => hformula (hstack b hin))
        ((hpq.find?_eq b).symm.trans (hpq.find?_eq_none hformula))]
      exact ihd (fun c hc => hcells c (hc.imp id (Asks.head (.read trivial)))) p q hpq

/-- What a formula asks for in the two sheets differs in absent cells alone. -/
theorem alikeOver (h : Framed a s t cells) {y text : String} (hy : cells y)
    (hf : s.formula? y = some text) (depth : Nat) :
    (outcomeAt s.setting depth text).AlikeOver s.cells.keys (outcomeAt t.setting depth text) := by
  refine alikeOver_of_skipping (h.draws y text depth hf) ?_
  rw [h.same.setting]
  refine skipping_outcomeAt (s := s.setting) s.cells.distinct t.cells.distinct h.rows.keys
    (fun k hk => h.rowReadable hk) depth text fun e hp b hb => ?_
  exact h.mem_keys_iff (h.closed.reads y text e b hy hf hp hb)

/-- A formula asks for none but these cells. -/
theorem cells_of_asks (h : Framed a s t cells) {y text : String} (hy : cells y)
    (hf : s.formula? y = some text) {depth : Nat} {setting : Setting}
    (hb : (outcomeAt setting depth text).Asks anyAnswer b) : cells b := by
  obtain ⟨e, hp⟩ := parse_of_asks hb
  exact h.closed.reads y text e b hy hf hp (reads_of_asks hp hb)

/-- **Evaluating one of these cells has the same outcome in both sheets**, and the passes stay the
same.  The induction is on the cells that are not in progress. -/
theorem outcomeOf (h : Framed a s t cells) (stack : List String) (depth : Nat) (y : String)
    (fresh : y ∉ stack) : cells y → (∀ b ∈ stack, b ∈ s.formulas) →
      s.Alongside (s.outcomeOf stack depth y fresh) (t.outcomeOf stack depth y fresh) := by
  induction stack, depth, y, fresh using outcomeOf.induct s with
  | case1 stack depth y fresh ih =>
  intro hy hstack p q hpq
  rw [outcomeOf_run, outcomeOf_run, ← hpq.find?_eq, h.formula?_eq hy, h.same.get y (h.ne hy)]
  cases hn : p.find? y with
  | some o => exact ⟨rfl, hpq⟩
  | none =>
  cases hf : s.formula? y with
  | none => exact ⟨rfl, hpq⟩
  | some text =>
  dsimp only
  have hstack' : ∀ b ∈ y :: stack, b ∈ s.formulas :=
    List.forall_mem_cons.mpr ⟨mem_formulas hf, hstack⟩
  have hcells : ∀ b, (outcomeAt s.setting depth text).Asks anyAnswer b ∨
      (outcomeAt t.setting depth text).Asks anyAnswer b → cells b := fun b hb =>
    hb.elim (h.cells_of_asks hy hf) (h.cells_of_asks hy hf)
  obtain ⟨heq, hmatch⟩ := h.hold hstack'
    (fun b depth' fresh' hb => ih text hf b depth' fresh' hb hstack') (h.alikeOver hy hf depth)
    hcells p q hpq
  rw [heq]
  exact hmatch.recordOutcome (mem_formulas hf) _

/-! ## Walking over references side by side -/

/-- The references of these cells are the same in both sheets. -/
theorem references_eq (h : Framed a s t cells) {y : String} (hy : cells y) :
    t.references y = s.references y := by
  have hft := h.formula?_eq hy
  cases hf : s.formula? y with
  | none => rw [Sheet.references_eq_nil hf, Sheet.references_eq_nil (hft.trans hf)]
  | some text =>
  have hnamed : t.namedFormulas text = s.namedFormulas text :=
    List.filter_congr fun b hb => by rw [h.formula?_eq (h.closed.names y text b hy hf (.inl hb))]
  rw [Sheet.references_eq hf, Sheet.references_eq (hft.trans hf), hnamed]
  refine foldlM_congr (fun corners hc found => ?_) _
  have hcovers : covers corners a = .ok false := by
    obtain ⟨h₁, h₂⟩ := h.rows.ranges y text hf corners hc
    obtain ⟨holds, hcov⟩ := covers_ok h₁ h₂ h.row
    cases holds with
    | false => exact hcov
    | true =>
        refine absurd rfl (h.ne (h.closed.names y text a hy hf (.inr ⟨corners, hc, ?_⟩)))
        exact covers_iff.mp hcov
  -- the changed cell is not found in any range, so the other formulas alone are searched
  have hskip : ∀ found, addCovered corners found a = .ok found := by
    intro found
    unfold addCovered
    rw [hcovers]
    split <;> rfl
  unfold addAllCovered
  rw [foldlM_filter_ne hskip, foldlM_filter_ne hskip s.formulas, h.same.filter_formulas]

/-- What these cells name is among them and holds a formula. -/
theorem cells_of_references (h : Framed a s t cells) {y : String} (hy : cells y)
    {deps : List String} (hdeps : s.references y = .ok deps) :
    ∀ b ∈ deps, cells b ∧ b ∈ s.formulas := by
  intro b hb
  obtain ⟨text, hf⟩ := Option.isSome_iff_exists.mp (isSome_formula?_of_references hdeps hb)
  obtain ⟨hformula, hnamed⟩ := (mem_references_iff hf hdeps).mp hb
  exact ⟨h.closed.names y text b hy hf hnamed, hformula⟩

end Framed

namespace Alongside

variable {α β : Type}

theorem bind {x y : ExceptT Failure (StateM Pass) α} {f g : α → ExceptT Failure (StateM Pass) β}
    (hxy : s.Alongside x.run y.run) (hfg : ∀ a, s.Alongside (f a).run (g a).run) :
    s.Alongside (x >>= f).run (y >>= g).run := by
  intro p q hpq
  obtain ⟨heq, hmatch⟩ := hxy p q hpq
  obtain ⟨r, p', hx⟩ : ∃ r p', StateT.run x.run p = (r, p') := ⟨_, _, rfl⟩
  obtain ⟨r', q', hy⟩ : ∃ r' q', StateT.run y.run q = (r', q') := ⟨_, _, rfl⟩
  rw [hx, hy] at heq hmatch
  obtain rfl : r = r' := heq
  cases r with
  | error cause =>
      rw [run_bind_error hx, run_bind_error hy]
      exact ⟨rfl, hmatch⟩
  | ok a =>
      rw [run_bind_ok hx, run_bind_ok hy]
      exact hfg a p' q' hmatch

theorem pure (a : α) : s.Alongside (Pure.pure a : ExceptT Failure (StateM Pass) α).run
    (Pure.pure a : ExceptT Failure (StateM Pass) α).run :=
  fun _ _ hpq => ⟨rfl, hpq⟩

theorem lift {x y : StateM Pass α} (h : s.Alongside x y) :
    s.Alongside (liftM x : ExceptT Failure (StateM Pass) α).run
      (liftM y : ExceptT Failure (StateM Pass) α).run := by
  intro p q hpq
  obtain ⟨heq, hmatch⟩ := h p q hpq
  exact ⟨congrArg Except.ok heq, hmatch⟩

/-- Of the passes themselves no more is used than what they have in common. -/
theorem getPass {f g : Pass → ExceptT Failure (StateM Pass) β}
    (h : ∀ p q : Pass, p.Matches s q → s.Alongside (f p).run (g q).run) :
    s.Alongside (getThe Pass >>= f).run (getThe Pass >>= g).run :=
  fun p q hpq => h p q hpq p q hpq

end Alongside

/-- The same for steps of a walk. -/
def AlongsideWalking (s : Sheet) {α : Type}
    (x y : StateT Walk (ExceptT Failure (StateM Pass)) α) : Prop :=
  ∀ w, s.Alongside (x.run w).run (y.run w).run

namespace AlongsideWalking

variable {α β : Type}

theorem bind {x y : StateT Walk (ExceptT Failure (StateM Pass)) α}
    {f g : α → StateT Walk (ExceptT Failure (StateM Pass)) β} (hxy : s.AlongsideWalking x y)
    (hfg : ∀ a, s.AlongsideWalking (f a) (g a)) : s.AlongsideWalking (x >>= f) (y >>= g) :=
  fun w => (hxy w).bind fun (a, w) => hfg a w

theorem pure (a : α) : s.AlongsideWalking (Pure.pure a) (Pure.pure a) :=
  fun w => Alongside.pure (a, w)

theorem ofOk {a : α} {f g : α → StateT Walk (ExceptT Failure (StateM Pass)) β}
    (h : s.AlongsideWalking (f a) (g a)) :
    s.AlongsideWalking (liftM (Except.ok a : Except Failure α) >>= f)
      (liftM (Except.ok a : Except Failure α) >>= g) :=
  fun w p q hpq => h w p q hpq

/-- Of the passes themselves no more is used than what they have in common. -/
theorem getPass {f g : Pass → StateT Walk (ExceptT Failure (StateM Pass)) β}
    (h : ∀ p q : Pass, p.Matches s q → s.AlongsideWalking (f p) (g q)) :
    s.AlongsideWalking (getThe Pass >>= f) (getThe Pass >>= g) :=
  fun w p q hpq => h p q hpq w p q hpq

theorem get : s.AlongsideWalking (MonadState.get : StateT Walk (ExceptT Failure (StateM Pass)) Walk)
    MonadState.get :=
  fun w => Alongside.pure (w, w)

theorem modify (f : Walk → Walk) :
    s.AlongsideWalking (modify f : StateT Walk (ExceptT Failure (StateM Pass)) PUnit)
      (modify f) :=
  fun w => Alongside.pure (PUnit.unit, f w)

theorem forM {l : List String} {f g : String → StateT Walk (ExceptT Failure (StateM Pass)) Unit}
    (h : ∀ a ∈ l, s.AlongsideWalking (f a) (g a)) : s.AlongsideWalking (l.forM f) (l.forM g) := by
  induction l with
  | nil => exact .pure ()
  | cons a l ih =>
      exact (h a List.mem_cons_self).bind fun _ => ih fun b hb => h b (List.mem_cons_of_mem a hb)

end AlongsideWalking

namespace Framed

theorem outcome (h : Framed a s t cells) {y : String} (hy : cells y) :
    s.Alongside (s.outcome y) (t.outcome y) :=
  h.outcomeOf [] 0 y List.not_mem_nil hy fun _ hb => (List.not_mem_nil hb).elim

/-- **A walk over references goes the same way in both sheets**, as long as there is room in both
for all the formulas that are not on the path. -/
theorem walk (h : Framed a s t cells) (room : Nat) : ∀ room' path cell, cells cell →
    (s.formulas.filter (· ∉ path)).length < room →
    (t.formulas.filter (· ∉ path)).length < room' →
    s.AlongsideWalking (s.walk room path cell) (t.walk room' path cell) := by
  induction room with
  | zero => exact fun _ _ _ _ hroom => absurd hroom (Nat.not_lt_zero _)
  | succ room ih =>
      intro room' path cell hcell hroom hroom'
      cases room' with
      | zero => exact absurd hroom' (Nat.not_lt_zero _)
      | succ room' =>
      rw [Sheet.walk, Sheet.walk, h.references_eq hcell]
      cases hdeps : s.references cell with
      | error cause => exact fun w p q hpq => ⟨rfl, hpq⟩
      | ok deps =>
      refine .ofOk (.forM fun dep hdep => .getPass fun p q hpq => ?_)
      obtain ⟨hcells, hformula⟩ := h.cells_of_references hcell hdeps dep hdep
      rw [hpq.find?_eq dep]
      split
      · exact .pure ()
      split
      · exact .modify _
      · next hpath =>
      refine .bind .get fun w => ?_
      split
      · exact .pure ()
      -- one formula fewer is off the path, in both sheets
      obtain ⟨text, hf⟩ := Option.isSome_iff_exists.mp (List.mem_filter.mp hformula).2
      have hstep := fewer_fresh hf hpath
      have hstep' := fewer_fresh ((h.formula?_eq hcells).trans hf) hpath
      refine .bind (.modify _) fun _ => ?_
      refine .bind (ih room' _ _ hcells (by omega) (by omega)) fun _ => ?_
      refine .bind .get fun w => ?_
      split
      · refine .bind (fun w => ?_) fun _ => .pure ()
        exact .bind (.lift (h.outcome hcells)) fun o => .pure (o, w)
      · exact .pure ()

theorem prepare (h : Framed a s t cells) {y : String} (hy : cells y) :
    s.Alongside (s.prepare y).run (t.prepare y).run := by
  have hroom : ∀ u : Sheet, (u.formulas.filter (· ∉ [y])).length < u.formulas.length + 1 :=
    fun u => Nat.lt_succ_of_le (List.length_filter_le _ _)
  unfold Sheet.prepare
  refine .getPass fun p q hpq => ?_
  rw [hpq.find?_eq y]
  split
  · exact .bind (h.walk _ _ _ _ hy (hroom s) (hroom t) _) fun _ => .pure ()
  · exact .pure ()

/-- **Asking for one of these cells gives the same in both sheets.** -/
theorem result (h : Framed a s t cells) {name : String} (hy : cells (Text.upper name)) :
    s.Alongside (s.result name).run (t.result name).run :=
  .bind (h.prepare hy) fun _ => .lift (h.outcome hy)

end Framed

end Sheet

namespace Session

/-- **The cells in the order of recalculation are all whose outcome an edit can change**: any other
cell has the same outcome in a pass that starts with it, before the edit and after it.  Both the
order and the outcome are always there. -/
theorem result_set_of_not_mem_recalcOrder {sheet : Sheet} (hcap : sheet.Capital)
    (hrows : sheet.RowsReadable) (hdraws : sheet.NeverDraws) (hcompact : sheet.WritesCompact)
    {edited : String} (hrow : Address.RowReadable (Text.upper edited)) :
    ∃ order, sheet.recalcOrder edited = .ok order ∧
      ∀ (v : Value) (name : String), Text.upper name ≠ Text.upper edited →
        Text.upper name ∉ order → ∀ (source : RandomSource) (p : Pass), ∃ o,
          (StateT.run (result name).run (start sheet source)).1 = .ok o ∧
          (StateT.run (result name).run (set ⟨sheet, p⟩ edited v)).1 = .ok o := by
  obtain ⟨order, horder⟩ := Sheet.recalcOrder_ok hcap hrows hrow
  refine ⟨order, horder, fun v name hne hnot source p => ?_⟩
  have hframed : Sheet.Framed (Text.upper edited) sheet (sheet.set edited v)
      fun y => y ≠ Text.upper edited ∧ y ∉ order :=
    ⟨sheet.sameBut_set edited v, Sheet.closedWithout_recalcOrder hcap hcompact horder, hrows, hrow,
      hdraws⟩
  obtain ⟨o, q, hrun, _⟩ := Sheet.result_accounted (Sheet.references_ok hrows) name
    (Pass.accounted_start sheet source)
  have hmatch : (Pass.start source).Matches sheet (Pass.start p.source) :=
    ⟨rfl, rfl, fun _ he => (List.not_mem_nil he).elim⟩
  obtain ⟨heq, _⟩ := hframed.result ⟨hne, hnot⟩ _ _ hmatch
  rw [hrun] at heq
  refine ⟨o, congrArg Prod.fst (run_result hrun), ?_⟩
  exact (congrArg Prod.fst (run_result rfl)).trans heq.symm

/-- A sheet whose range is walked cell by cell as long as there are five cells. -/
def rangeBesideEdit : Sheet :=
  .ofEntries [("A1", .number (.int 1)), ("A2", .text "=A1+1"), ("B1", .text "=SUM(C1:C5)"),
    ("C1", .number (.int 2)), ("D1", .text "=D1+B1")]

/-- A total beside a cell that is cleared.  With four cells left, its range is looked up among their
addresses. -/
theorem result_rangeBesideEdit :
    rangeBesideEdit.Capital ∧ rangeBesideEdit.RowsReadable ∧ rangeBesideEdit.NeverDraws ∧
      rangeBesideEdit.WritesCompact ∧ Address.RowReadable (Text.upper "a1") ∧
      ∃ order, rangeBesideEdit.recalcOrder "a1" = .ok order ∧ order = ["A2"] ∧
        ∀ source p, ∃ o,
          (StateT.run (result "b1").run (start rangeBesideEdit source)).1 = .ok o ∧
          (StateT.run (result "b1").run (set ⟨rangeBesideEdit, p⟩ "a1" .null)).1 = .ok o := by
  have hcap : rangeBesideEdit.Capital := Sheet.capital_ofEntries _
  have hrows : rangeBesideEdit.RowsReadable := by decide +kernel
  have hcallees : ∀ y ∈ rangeBesideEdit.cells.keys, ∀ text ∈ rangeBesideEdit.formula? y,
      ∀ f ∈ callees text, f = .aggregate .sum := by decide +kernel
  have hdraws : rangeBesideEdit.NeverDraws :=
    Sheet.neverDraws_of_callees fun y hy text hf f hm g => hcallees y hy text hf f hm ▸ nofun
  have hcompact : rangeBesideEdit.WritesCompact :=
    Sheet.writesCompact_of_blankless (by decide +kernel)
  have hrow : Address.RowReadable (Text.upper "a1") := by decide +kernel
  obtain ⟨order, horder, hsame⟩ :=
    result_set_of_not_mem_recalcOrder hcap hrows hdraws hcompact hrow
  have hlist : order = ["A2"] := Except.ok.inj (horder.symm.trans (by cbv))
  refine ⟨hcap, hrows, hdraws, hcompact, hrow, order, horder, hlist, fun source p => ?_⟩
  have hname : Text.upper "b1" = "B1" := by decide +kernel
  refine hsame .null "b1" (by decide +kernel) ?_ source p
  rw [hname, hlist]
  decide

end Session

end Worksheet
