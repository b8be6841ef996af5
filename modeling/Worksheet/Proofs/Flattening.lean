import Worksheet.Proofs.Affected
import Worksheet.Proofs.Machine

/-!
# Chains of references do not nest

When a cell is asked for, the cells below it are evaluated first, deepest first.  If no cell names
itself, directly or through others, and no range is written with blanks around its colon, this
leaves nothing to be evaluated in the middle of a formula: whatever a formula reads has an outcome
by the time that it is evaluated, so there is never more than one cell in progress.

What one step keeps is that each cell on the path has no references but those that have been
evaluated, those that are still to be looked at, and the one that the search has gone on to.
-/

namespace Worksheet

open Formula Dialogue Relation

namespace Sheet

variable {s : Sheet} {x y text : String}

/-! ## The graph of references -/

/-- Whether the formula of a cell names a formula cell. -/
def Names (s : Sheet) (x y : String) : Prop :=
  ∃ deps, s.references x = .ok deps ∧ y ∈ deps

/-- Whether no cell names itself, directly or through others. -/
def Acyclic (s : Sheet) : Prop :=
  ∀ x, ¬ TransGen s.Names x x

theorem names_iff {deps : List String} (h : s.references x = .ok deps) :
    s.Names x y ↔ y ∈ deps :=
  ⟨fun ⟨_, h', hy⟩ => Except.ok.inj (h.symm.trans h') ▸ hy, fun hy => ⟨deps, h, hy⟩⟩

theorem Names.mem_formulas (h : s.Names x y) : y ∈ s.formulas := by
  obtain ⟨deps, hdeps, hy⟩ := h
  exact mem_formulas_of_mem_references hdeps hy

theorem Names.mem_formulas_left (h : s.Names x y) : x ∈ s.formulas := by
  obtain ⟨deps, hdeps, hy⟩ := h
  obtain ⟨text, hf⟩ := Option.isSome_iff_exists.mp (isSome_formula?_of_references hdeps hy)
  exact Sheet.mem_formulas hf

/-- Cells that name only cells of a lower rank do not name themselves through others. -/
theorem acyclic_of_rank (rank : String → Nat)
    (h : ∀ x ∈ s.formulas, ∀ deps ∈ (s.references x).toOption, ∀ y ∈ deps, rank y < rank x) :
    s.Acyclic := by
  have hnames : ∀ {x y}, s.Names x y → rank y < rank x := by
    intro x y hxy
    obtain ⟨deps, hdeps, hy⟩ := hxy
    exact h x (Names.mem_formulas_left ⟨deps, hdeps, hy⟩) deps (by rw [hdeps]; rfl) y hy
  have hless : ∀ {x y}, TransGen s.Names x y → rank y < rank x := by
    intro x y hxy
    induction hxy with
    | single hxy => exact hnames hxy
    | tail _ hyz ih => exact Nat.lt_trans (hnames hyz) ih
  exact fun x hx => Nat.lt_irrefl _ (hless hx)

/-- A formula without blanks around colons names all formula cells that it reads. -/
theorem Refers.names (hcompact : s.WritesCompact) (hrows : s.RowsReadable) (h : s.Refers x y)
    (hy : y ∈ s.formulas) : s.Names x y := by
  obtain ⟨text, e, hf, hp, hreads⟩ := h
  obtain ⟨deps, hdeps⟩ := references_ok hrows x
  exact ⟨deps, hdeps, mem_references_of_reads hf hp (hcompact x text e hf hp) hdeps hy hreads⟩

end Sheet

namespace Machine

variable {s : Sheet} {p q : Pass} {below : List String} {path outer : List Branch}

/-! ## What holds along the path -/

/-- Whether a cell has been evaluated. -/
def Known (p : Pass) (y : String) : Prop :=
  (p.find? y).isSome

/-- Whether the references of a cell on the path have been evaluated, are still to be looked at, or
are what the search has gone on to. -/
structure Awaits (s : Sheet) (p : Pass) (below : List String) (b : Branch) : Prop where
  formula : b.cell ∈ s.formulas
  names : ∀ y, y ∈ b.deps ∨ y ∈ below → s.Names b.cell y
  known : ∀ y, s.Names b.cell y → Known p y ∨ y ∈ b.deps ∨ y ∈ below

/-- Whether that is so for all cells of a path, each of which has gone on to the one behind it. -/
def Descends (s : Sheet) (p : Pass) : List String → List Branch → Prop
  | _, [] => True
  | below, b :: path => Awaits s p below b ∧ Descends s p [b.cell] path

theorem Descends.leads (h : Descends s p below path) {y z : String}
    (hy : y ∈ path.map (·.cell)) (hz : z ∈ below) : TransGen s.Names y z := by
  induction path generalizing below z with
  | nil => exact absurd hy List.not_mem_nil
  | cons b path ih =>
      have hb : s.Names b.cell z := h.1.names z (.inr hz)
      rcases List.mem_cons.mp hy with rfl | hy
      · exact .single hb
      · exact (ih h.2 hy (List.mem_singleton_self _)).tail hb

theorem Descends.mono (h : Descends s p below path) (hgrows : ∀ y, Known p y → Known q y) :
    Descends s q below path := by
  induction path generalizing below with
  | nil => trivial
  | cons b path ih =>
      exact ⟨⟨h.1.formula, h.1.names, fun y hy => (h.1.known y hy).imp_left (hgrows y)⟩, ih h.2⟩

/-- The search comes back from cells that have been evaluated. -/
theorem Descends.back (h : Descends s p below path) (hknown : ∀ y ∈ below, Known p y) :
    Descends s p [] path := by
  cases path with
  | nil => trivial
  | cons b path =>
      refine ⟨⟨h.1.formula, fun y hy => ?_, fun y hy => ?_⟩, h.2⟩
      · exact h.1.names y (hy.imp_right fun hin => absurd hin List.not_mem_nil)
      · rcases h.1.known y hy with hy | hy | hy
        · exact .inl hy
        · exact .inr (.inl hy)
        · exact .inl (hknown y hy)

/-- The search goes on to a reference. -/
theorem Awaits.enter {x dep : String} {deps : List String} (h : Awaits s p [] ⟨x, dep :: deps⟩) :
    Awaits s p [dep] ⟨x, deps⟩ where
  formula := h.formula
  names y hy := by
    refine h.names y (.inl ?_)
    rcases hy with hy | hy
    · exact List.mem_cons_of_mem _ hy
    · exact List.mem_singleton.mp hy ▸ List.mem_cons_self
  known y hy := by
    rcases h.known y hy with hy | hy | hy
    · exact .inl hy
    · rcases List.mem_cons.mp hy with rfl | hy
      · exact .inr (.inr (List.mem_singleton_self _))
      · exact .inr (.inl hy)
    · exact absurd hy List.not_mem_nil

/-- A cell whose references have all still to be looked at. -/
theorem awaits_of_references {x : String} (hx : x ∈ s.formulas) {deps : List String}
    (h : s.references x = .ok deps) : Awaits s p [] ⟨x, deps⟩ where
  formula := hx
  names _ hy := (Sheet.names_iff h).mpr (hy.resolve_right List.not_mem_nil)
  known _ hy := .inr (.inl ((Sheet.names_iff h).mp hy))

/-! ## What holds of a machine -/

/-- Whether all that a formula in progress names has been evaluated, and what is left of its dialogue
asks for nothing else. -/
structure Prepared (s : Sheet) (p : Pass) (a : Activation) : Prop where
  known : ∀ y, s.Names a.cell y → Known p y
  asks : ∀ y, a.dialogue.Asks anyAnswer y → y ∈ s.formulas → s.Names a.cell y

/-- A machine in which at most one cell is in progress, with all that its formula names
evaluated. -/
structure Flat (s : Sheet) (m : Machine) : Prop where
  safe : m.failure = none
  path : Descends s m.pass (m.stack.map (·.cell)) m.path
  visited : ∀ y ∈ m.walk.visited,
    Known m.pass y ∨ y ∈ m.path.map (·.cell) ∨ y ∈ m.stack.map (·.cell)
  onCycle : m.walk.onCycle = []
  single : m.stack.length ≤ 1
  prepared : ∀ a ∈ m.stack, Prepared s m.pass a

namespace Flat

variable {w : Sheet.Walk} {x : String} {d d' : Dialogue Outcome}

/-- One exchange of the formula in progress. -/
theorem answered (h : Flat s ⟨path, w, [⟨x, d⟩], p, none⟩) (hstep : Dialogue.Step anyAnswer d d')
    (hsame : q.results = p.results) : Flat s ⟨path, w, [⟨x, d'⟩], q, none⟩ := by
  have hknown : ∀ y, Known p y → Known q y := by
    intro y hy
    unfold Known Pass.find? at hy ⊢
    rwa [hsame]
  refine ⟨rfl, h.path.mono hknown, fun y hy => (h.visited y hy).imp_left (hknown y), h.onCycle,
    Nat.le_refl 1, fun a ha => ?_⟩
  obtain rfl := List.mem_singleton.mp ha
  have hprepared := h.prepared _ (List.mem_singleton_self _)
  exact ⟨fun y hy => hknown y (hprepared.known y hy),
    fun y hasks hy => hprepared.asks y (hasks.head hstep) hy⟩

/-- The formula in progress comes to its outcome. -/
theorem recorded (h : Flat s ⟨path, w, [⟨x, d⟩], p, none⟩) (o : Outcome) :
    Flat s ⟨path, w, [], (p.recordOutcome x o).2, none⟩ := by
  have hself : Known (p.recordOutcome x o).2 x := by
    unfold Known
    rw [show (p.recordOutcome x o).2.find? x = _ from List.lookup_cons_self]
    rfl
  have hknown : ∀ y, Known p y → Known (p.recordOutcome x o).2 y := by
    intro y hy
    by_cases hyx : y = x
    · exact hyx ▸ hself
    · unfold Known
      rw [show (p.recordOutcome x o).2.find? y = _ from List.lookup_cons ..,
        beq_false_of_ne hyx]
      exact hy
  refine ⟨rfl, ?_, fun y hy => ?_, h.onCycle, Nat.zero_le 1, fun _ ha => absurd ha List.not_mem_nil⟩
  · exact (h.path.mono hknown).back fun y hy => List.mem_singleton.mp hy ▸ hself
  · rcases h.visited y hy with hy | hy | hy
    · exact .inl (hknown y hy)
    · exact .inr (.inl hy)
    · exact .inl (List.mem_singleton.mp hy ▸ hself)

/-- **A step of the evaluation**: it never takes up another cell. -/
theorem advance (h : Flat s ⟨path, w, [⟨x, d⟩], p, none⟩) {m' : Machine}
    (hnext : Machine.next s ⟨path, w, [⟨x, d⟩], p, none⟩ = some m') : Flat s m' := by
  cases d with
  | done o =>
      obtain rfl := Option.some.inj hnext
      exact h.recorded o
  | drawFraction next =>
      obtain rfl := Option.some.inj hnext
      exact h.answered (.fraction _) rfl
  | drawInteger low high next =>
      obtain rfl := Option.some.inj hnext
      exact h.answered (.integer _) rfl
  | read a depth next =>
      by_cases ha : a ∈ [x]
      · rw [next_read_of_mem path w [] depth next ha] at hnext
        obtain rfl := Option.some.inj hnext
        exact h.answered (.read trivial) rfl
      cases ho : p.outcome? s a with
      | some o =>
          rw [next_read_of_outcome? path w [] depth next ha ho] at hnext
          obtain rfl := Option.some.inj hnext
          exact h.answered (.read trivial) rfl
      | none =>
          -- a formula that has not been evaluated would have been named
          obtain ⟨hn, text, hf⟩ := Pass.outcome?_eq_none_iff.mp ho
          have hprepared := h.prepared _ (List.mem_singleton_self _)
          have hnames := hprepared.asks a ⟨depth, next, .refl⟩ (Sheet.mem_formulas hf)
          have hknown : (p.find? a).isSome := hprepared.known a hnames
          rw [hn] at hknown
          cases hknown

/-- A cell is taken up when the search has come back to it. -/
theorem begin (hcompact : s.WritesCompact) (hrows : s.RowsReadable)
    (h : Flat s ⟨⟨x, []⟩ :: outer, w, [], p, none⟩) :
    Flat s (Machine.begin s 0 x ⟨outer, w, [], p, none⟩) := by
  obtain ⟨hawaits, hpath⟩ := h.path
  have hall : ∀ y, s.Names x y → Known p y := by
    intro y hy
    rcases hawaits.known y hy with hy | hy | hy
    · exact hy
    · exact absurd hy List.not_mem_nil
    · exact absurd hy List.not_mem_nil
  obtain ⟨text, hf⟩ := Option.isSome_iff_exists.mp (List.mem_filter.mp hawaits.formula).2
  cases hn : p.find? x with
  | some o =>
      have hx : Known p x := Option.isSome_iff_exists.mpr ⟨o, hn⟩
      rw [begin_of_find? hn]
      refine ⟨rfl, hpath.back fun y hy => List.mem_singleton.mp hy ▸ hx, fun y hy => ?_, h.onCycle,
        h.single, h.prepared⟩
      rcases h.visited y hy with hy | hy | hy
      · exact .inl hy
      · rcases List.mem_cons.mp hy with rfl | hy
        · exact .inl hx
        · exact .inr (.inl hy)
      · exact absurd hy List.not_mem_nil
  | none =>
      rw [begin_of_formula? hn hf]
      refine ⟨rfl, hpath, fun y hy => ?_, h.onCycle, Nat.le_refl 1, fun a ha => ?_⟩
      · rcases h.visited y hy with hy | hy | hy
        · exact .inl hy
        · rcases List.mem_cons.mp hy with rfl | hy
          · exact .inr (.inr (List.mem_singleton_self _))
          · exact .inr (.inl hy)
        · exact absurd hy List.not_mem_nil
      · obtain rfl := List.mem_singleton.mp ha
        refine ⟨hall, fun y hasks hy => ?_⟩
        exact Sheet.Refers.names hcompact hrows (Sheet.Inquires.refers ⟨text, 0, hf, hasks⟩) hy

/-- **A step of the search**: it never comes back to a cell that has not been evaluated. -/
theorem search (hcompact : s.WritesCompact) (hrows : s.RowsReadable) (hacyclic : s.Acyclic)
    {deps : List String} (h : Flat s ⟨⟨x, deps⟩ :: outer, w, [], p, none⟩) {m' : Machine}
    (hnext : Machine.next s ⟨⟨x, deps⟩ :: outer, w, [], p, none⟩ = some m') : Flat s m' := by
  obtain ⟨hawaits, hpath⟩ := h.path
  cases deps with
  | nil =>
      have hfree : (outer.isEmpty || decide (x ∉ w.onCycle)) = true := by
        rw [show w.onCycle = [] from h.onCycle]
        simp
      have hnext' : some (if (outer.isEmpty || decide (x ∉ w.onCycle)) = true then _ else _) =
          some m' := hnext
      rw [if_pos hfree] at hnext'
      obtain rfl := Option.some.inj hnext'
      exact h.begin hcompact hrows
  | cons dep deps =>
      have hdep : s.Names x dep := hawaits.names dep (.inl List.mem_cons_self)
      have hentered : Descends s p [dep] (⟨x, deps⟩ :: outer) := ⟨hawaits.enter, hpath⟩
      -- the cells on the path lead to this reference, so it is none of them
      have hnot : dep ∉ x :: outer.map (·.cell) := fun hin =>
        hacyclic dep (hentered.leads hin (List.mem_singleton_self dep))
      have hnext' : some (if (p.find? dep).isSome then _ else if dep ∈ x :: outer.map (·.cell) then _
          else if dep ∈ w.visited then _ else _) = some m' := hnext
      by_cases hknown : (p.find? dep).isSome
      · rw [if_pos hknown] at hnext'
        obtain rfl := Option.some.inj hnext'
        exact ⟨rfl, hentered.back fun y hy => List.mem_singleton.mp hy ▸ hknown, h.visited,
          h.onCycle, h.single, h.prepared⟩
      have hfresh : dep ∉ w.visited := by
        intro hin
        rcases h.visited dep hin with hy | hy | hy
        · exact hknown hy
        · exact hnot hy
        · exact List.not_mem_nil hy
      obtain ⟨deps', hdeps'⟩ := Sheet.references_ok hrows dep
      rw [if_neg hknown, if_neg hnot, if_neg hfresh, descend_of_ok hdeps'] at hnext'
      obtain rfl := Option.some.inj hnext'
      refine ⟨rfl, ⟨awaits_of_references hdep.mem_formulas hdeps', hentered⟩, fun y hy => ?_,
        h.onCycle, h.single, h.prepared⟩
      rcases List.mem_cons.mp hy with rfl | hy
      · exact .inr (.inl List.mem_cons_self)
      · exact (h.visited y hy).imp_right fun hy => hy.imp_left (List.mem_cons_of_mem _)

/-- **What one step keeps.** -/
theorem step (hcompact : s.WritesCompact) (hrows : s.RowsReadable) (hacyclic : s.Acyclic)
    {m m' : Machine} (h : Flat s m) (hnext : m.next s = some m') : Flat s m' := by
  obtain ⟨path, w, stack, p, failure⟩ := m
  obtain rfl : failure = none := h.safe
  cases stack with
  | cons a outer =>
      obtain rfl := List.length_eq_zero_iff.mp (Nat.le_zero.mp (Nat.le_of_succ_le_succ h.single))
      exact h.advance hnext
  | nil =>
      cases path with
      | nil => cases hnext
      | cons b outer => exact h.search hcompact hrows hacyclic hnext

/-- **What a run keeps.** -/
theorem runs (hcompact : s.WritesCompact) (hrows : s.RowsReadable) (hacyclic : s.Acyclic)
    {m m' : Machine} (h : Flat s m) (hruns : Runs s m m') : Flat s m' := by
  induction hruns with
  | refl => exact h
  | tail _ hnext ih => exact ih.step hcompact hrows hacyclic hnext

theorem start (hrows : s.RowsReadable) (p : Pass) (x : String) : Flat s (Machine.start s p x) := by
  unfold Machine.start
  cases ho : p.outcome? s x with
  | some o =>
      exact ⟨rfl, trivial, fun _ hy => absurd hy List.not_mem_nil, rfl, Nat.zero_le 1,
        fun _ ha => absurd ha List.not_mem_nil⟩
  | none =>
      obtain ⟨_, text, hf⟩ := Pass.outcome?_eq_none_iff.mp ho
      obtain ⟨deps, hdeps⟩ := Sheet.references_ok hrows x
      rw [if_neg (by simp), descend_of_ok hdeps]
      refine ⟨rfl, ⟨awaits_of_references (Sheet.mem_formulas hf) hdeps, trivial⟩, fun y hy => ?_,
        rfl, Nat.zero_le 1, fun _ ha => absurd ha List.not_mem_nil⟩
      exact .inr (.inl hy)

end Flat

/-- **Asking for a cell comes to an end, and without cycles no evaluation nests.**  On every sheet and
whatever has been evaluated before, the search for the cells below and the evaluations that it starts
come to an end, to the result of asking for the cell.  If no cell names itself through others and
ranges are written without blanks, there is never more than one cell in progress, and each formula
cell that its formula refers to has been evaluated. -/
theorem ends_flat (s : Sheet) (p : Pass) (name : String) :
    (∃ m, (∀ m', Runs s (start s p (Text.upper name)) m' → Runs s m' m) ∧
      m.EndsIn s (Text.upper name) (StateT.run (s.result name).run p)) ∧
    (s.Acyclic → s.WritesCompact → s.RowsReadable →
      ∀ m, Runs s (start s p (Text.upper name)) m →
        m.failure = none ∧ m.stack.length ≤ 1 ∧
          ∀ a ∈ m.stack, ∀ y ∈ s.formulas, s.Refers a.cell y → (m.pass.find? y).isSome) := by
  obtain ⟨m, hruns, hends⟩ := exists_endsIn s p name
  refine ⟨⟨m, fun _ => hruns.to_end hends.ended, hends⟩, fun hacyclic hcompact hrows m hruns => ?_⟩
  have hflat := (Flat.start hrows p (Text.upper name)).runs hcompact hrows hacyclic hruns
  refine ⟨hflat.safe, hflat.single, fun a ha y hy hrefers => ?_⟩
  exact (hflat.prepared a ha).known y (hrefers.names hcompact hrows hy)

/-- Two cells that share one below them, under a range over both. -/
def diamondUnderRange : Sheet :=
  .ofEntries [("A1", .text "=SUM(B1:B3)"), ("B1", .text "=C1+1"), ("B2", .text "=C1*C2"),
    ("B3", .number (.int 4)), ("C1", .text "=C2-1"), ("C2", .number (.int 7))]

/-- The cell that is shared has been evaluated before. -/
theorem flat_diamondUnderRange : diamondUnderRange.Acyclic ∧ diamondUnderRange.WritesCompact ∧
    diamondUnderRange.RowsReadable ∧
      let p : Pass := ⟨[("C1", .ok (.number (.int 6)))], [], .scripted [] []⟩
      (∃ m, (∀ m', Runs diamondUnderRange (start diamondUnderRange p "A1") m' →
        Runs diamondUnderRange m' m) ∧
        m.EndsIn diamondUnderRange "A1" (StateT.run (diamondUnderRange.result "a1").run p)) ∧
      ∀ m, Runs diamondUnderRange (start diamondUnderRange p "A1") m →
        m.failure = none ∧ m.stack.length ≤ 1 ∧ ∀ a ∈ m.stack, ∀ y ∈ diamondUnderRange.formulas,
          diamondUnderRange.Refers a.cell y → (m.pass.find? y).isSome := by
  let rank (x : String) : Nat := if x = "A1" then 2 else if x = "C1" then 0 else 1
  have hacyclic : diamondUnderRange.Acyclic := Sheet.acyclic_of_rank rank (by decide +kernel)
  have hcompact : diamondUnderRange.WritesCompact :=
    Sheet.writesCompact_of_blankless (by decide +kernel)
  have hrows : diamondUnderRange.RowsReadable := by decide +kernel
  have hname : Text.upper "a1" = "A1" := by decide +kernel
  obtain ⟨hends, hflat⟩ := ends_flat diamondUnderRange
    ⟨[("C1", .ok (.number (.int 6)))], [], .scripted [] []⟩ "a1"
  rw [hname] at hends hflat
  exact ⟨hacyclic, hcompact, hrows, hends, hflat hacyclic hcompact hrows⟩

end Machine

end Worksheet
