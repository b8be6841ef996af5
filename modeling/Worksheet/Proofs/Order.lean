import Worksheet.Proofs.Lockstep
import Worksheet.Proofs.Meaning

/-!
# When the order of evaluation does not matter

A cell that is evaluated while other cells are in progress can be found on a cycle, and the same
cell evaluated later can be answered with an outcome that no longer shows the cycle.  As long as the
formulas on cycles catch no failures this makes no difference: a failure on a cycle goes all the way
around it.  With one that catches failures it does make a difference, and two small sheets show that
for each of the two functions that catch them.
-/

namespace Worksheet

open Formula Dialogue Relation

namespace Sheet

/-- Whether the formula of a cell can come to ask for another one, whatever it is answered. -/
abbrev MayRead (s : Sheet) : String → String → Prop :=
  s.Reads anyAnswer

/-- Whether the formulas of a sheet use no random numbers. -/
def Drawless (s : Sheet) : Prop :=
  ∀ a text, s.formula? a = some text → (s.dialogue text).Drawless

/-- Whether the formulas that can come to ask for their own cell, directly or through others, call
no functions but given ones. -/
def CyclesCall (s : Sheet) (allowed : Function → Prop) : Prop :=
  ∀ a text, s.formula? a = some text → TransGen s.MayRead a a → ∀ f ∈ callees text, allowed f

/-- Whether a cell can be reached from another one, and not the other way round. -/
def Below (s : Sheet) (b a : String) : Prop :=
  TransGen s.MayRead a b ∧ ¬ TransGen s.MayRead b a

theorem wellFounded_below (s : Sheet) :
    WellFounded fun b a : {a // a ∈ s.formulas} => s.Below b a := by
  have : Finite {a // a ∈ s.formulas} := (List.finite_toSet s.formulas).to_subtype
  have : IsTrans {a // a ∈ s.formulas} fun b a => s.Below b a :=
    ⟨fun _ _ _ h h' => ⟨h'.1.trans h.1, fun hn => h.2 (hn.trans h'.1)⟩⟩
  have : Std.Irrefl fun b a : {a // a ∈ s.formulas} => s.Below b a := ⟨fun _ h => h.2 h.1⟩
  exact Finite.wellFounded_of_trans_of_irrefl _

end Sheet

namespace Pass

variable {s : Sheet} {p q : Pass}

/-! ## One pass -/

/-- Between two calls, each cell on a recorded cycle has failed. -/
theorem Sound.find_of_cyclic (hp : p.Sound s []) {a : String} (ha : p.Cyclic a) :
    ∃ cause, p.find? a = some (.error cause) := by
  obtain ⟨path, _, _, ho⟩ := hp.accounted.find_of_cyclic ha
  exact ⟨_, ho⟩

/-- Between two calls, what a formula can get is as good as what there is: the plain value of a
cell, or its outcome as far as the value goes. -/
theorem Sound.toOption_of_answers (hp : p.Sound s []) {a : String} {v : Except Failure Value}
    (hv : p.Answers s a v) : (s.formula? a = none ∧ v = .ok (s.cells.get a)) ∨
      ∃ o, p.find? a = some o ∧ v.toOption = o.toOption := by
  cases hv with
  | plain hf => exact .inl ⟨hf, rfl⟩
  | @found _ o ho =>
      refine .inr ⟨o, ho, ?_⟩
      cases o with
      | ok v => rfl
      | error cause => rfl
  | cyclic hpath ha =>
      obtain ⟨cause, ho⟩ := hp.find_of_cyclic ⟨_, hpath, ha⟩
      exact .inr ⟨_, ho, rfl⟩
  | outOfReach hlimit _ => exact absurd hp.unlimited hlimit

/-- Why a cell has a value: its formula came to it from what had been evaluated before. -/
theorem Sound.ends_of_ok {stack : List String} (hp : p.Sound s stack) {a : String} {v : Value}
    {rest : List (String × Outcome)} (h : (a, .ok v) :: rest <:+ p.results) :
    ∃ text, s.formula? a = some text ∧ (s.dialogue text).Ends (s.Answers rest []) (.ok v) := by
  obtain ⟨text, hf, hj⟩ := hp.justified h
  refine ⟨text, hf, ?_⟩
  cases hc : p.cycles.find? (a ∈ ·) with
  | some path =>
      rw [hc] at hj
      cases hj
  | none =>
      rw [hc] at hj
      exact hj

/-! ## Two passes -/

/-- Whether two passes that have evaluated a cell have the same value for it, or both a failure. -/
def Agree (p q : Pass) (a : String) : Prop :=
  ∀ o o', p.find? a = some o → q.find? a = some o' → o.toOption = o'.toOption

theorem Agree.symm {a : String} (h : p.Agree q a) : q.Agree p a :=
  fun o o' ho ho' => (h o' o ho' ho).symm

theorem Agree.answers {a : String} (h : p.Agree q a) (hp : p.Sound s []) (hq : q.Sound s [])
    {v w : Except Failure Value} (hv : p.Answers s a v) (hw : q.Answers s a w) :
    v.toOption = w.toOption := by
  rcases hp.toOption_of_answers hv with ⟨hf, rfl⟩ | ⟨o, ho, hv⟩
  · rcases hq.toOption_of_answers hw with ⟨_, rfl⟩ | ⟨o', ho', _⟩
    · rfl
    · obtain ⟨text, hf'⟩ := hq.formula_of_find ho'
      rw [hf] at hf'
      cases hf'
  · rcases hq.toOption_of_answers hw with ⟨hf, _⟩ | ⟨o', ho', hw⟩
    · obtain ⟨text, hf'⟩ := hp.formula_of_find ho
      rw [hf] at hf'
      cases hf'
    · rw [hv, hw]
      exact h o o' ho ho'

theorem alike_dialogue (hs : s.limit = none) (text : String) :
    (s.dialogue text).Alike (s.dialogue text) :=
  respected_alike.outcomeAt hs 0 0 text fun _ _ => trivial

/-- Passes agree on a cell on no cycle when they do on the cells that it can read. -/
theorem agree_of_reads (hs : s.limit = none) (hd : s.Drawless) (hp : p.Sound s [])
    (hq : q.Sound s []) {a : String} (hpa : ¬ p.Cyclic a) (hqa : ¬ q.Cyclic a)
    (hreads : ∀ b, s.MayRead a b → p.Agree q b) : p.Agree q a := by
  intro o o' ho ho'
  obtain ⟨text, hf⟩ := hp.formula_of_find ho
  have hPQ : ∀ b v w, (s.dialogue text).Asks anyAnswer b → p.Answers s b v → q.Answers s b w →
      v.toOption = w.toOption :=
    fun b v w hb hv hw => (hreads b ⟨text, hf, hb⟩).answers hp hq hv hw
  have hend := (alike_dialogue hs text).lockstep (hd a text hf) hPQ (hp.ends_of_find hf hpa ho)
  exact hend.1 o' (hq.ends_of_find hf hqa ho')

/-- The next cell around a cycle that was found has failed as well. -/
theorem Sound.next_of_cyclic (hq : q.Sound s []) {c text : String} (hf : s.formula? c = some text)
    (hcyclic : q.Cyclic c) : ∃ b text' cause, (s.dialogue text).Asks (q.Answers s) b ∧
      s.formula? b = some text' ∧ TransGen s.MayRead c b ∧ TransGen s.MayRead b c ∧
      q.find? b = some (.error cause) := by
  obtain ⟨path, hpath, hc⟩ := hcyclic
  obtain ⟨b, hb, text₀, hf₀, hcb⟩ := hq.reads_of_cyclic hpath hc
  obtain rfl : text = text₀ := Option.some.inj (hf.symm.trans hf₀)
  obtain ⟨_, _, text', hb', _⟩ := hq.reads_of_cyclic hpath hb
  obtain ⟨cause, ho⟩ := hq.find_of_cyclic ⟨path, hpath, hb⟩
  have hring : s.Ring anyAnswer path :=
    (hq.rings path hpath).mono fun _ _ => Sheet.Reads.mono fun _ _ _ => trivial
  exact ⟨b, text', cause, hcb, hb', hring.transGen hc hb, hring.transGen hb hc, ho⟩

/-- Two passes give the same answer for a cell if one has a value and the other has it too. -/
theorem toOption_of_answers_ok (hp : p.Sound s []) (hq : q.Sound s [])
    {rest : List (String × Outcome)} (hrest : rest <:+ p.results) {b : String} {x : Value}
    (hsame : ∀ text, s.formula? b = some text → ∀ o, q.find? b = some o → o = .ok x)
    (hu : s.Answers rest [] b (.ok x)) {w : Except Failure Value} (hw : q.Answers s b w) :
    some x = w.toOption := by
  rcases hq.toOption_of_answers hw with ⟨hn, rfl⟩ | ⟨o, ho, hw⟩
  · rcases hu.of_ok with ⟨_, rfl⟩ | hu
    · rfl
    · obtain ⟨_, ht⟩ := hp.formula_of_find (lookup_of_suffix hp.nodup_results hrest hu)
      rw [hn] at ht
      cases ht
  · obtain ⟨text, hb⟩ := hq.formula_of_find ho
    rw [hw, hsame text hb o ho]
    rfl

/-- **A value on a cycle is the same in any other pass.**  It has been come to with values alone,
so with values that had been evaluated before.  That is what the induction is on: the cells on the
way round the cycle come earlier in the pass, and those that lead out of it are covered by
`hbelow`. -/
theorem value_of_value (hs : s.limit = none) (hd : s.Drawless)
    (hcatch : s.CyclesCall fun f => f ≠ .conditional .ifError ∧ f ≠ .conditional .isError)
    (hp : p.Sound s []) (hq : q.Sound s []) {a : String}
    (hbelow : ∀ b, s.Below b a → p.Agree q b) (l : List (String × Outcome)) :
    l <:+ p.results → ∀ c v, (c, .ok v) ∈ l → TransGen s.MayRead a c → TransGen s.MayRead c a →
      ∀ o', q.find? c = some o' → o' = .ok v := by
  induction l with
  | nil => exact fun _ c v hc => absurd hc List.not_mem_nil
  | cons e rest ih =>
  intro hl c v hcv hac hca o' ho'
  have hrest : rest <:+ p.results := (List.suffix_cons e rest).trans hl
  rcases List.mem_cons.mp hcv with rfl | hcv
  swap
  · exact ih hrest c v hcv hac hca o' ho'
  obtain ⟨text, hf, hend⟩ := hp.ends_of_ok hl
  have hpass : (s.dialogue text).PassesFailures :=
    respected_passesFailures.outcomeAt hs 0 0 text (hcatch c text hf (hca.trans hac))
  have hvalues := hpass.ends_ok (hd c text hf) hend
  -- a formula around the cycle that gave a value comes earlier, so the other pass has that value
  have hround : ∀ b u, s.Answers rest [] b (.ok u) → ∀ text', s.formula? b = some text' →
      TransGen s.MayRead a b → TransGen s.MayRead b a → ∀ o, q.find? b = some o → o = .ok u := by
    intro b u hu text' hb hab hba
    rcases hu.of_ok with ⟨hn, _⟩ | hu
    · rw [hn] at hb
      cases hb
    · exact ih hrest b u (mem_of_lookup hu) hab hba
  have hPQ : ∀ b u w, (s.dialogue text).Asks anyAnswer b →
      (s.Answers rest [] b u ∧ ∃ x, u = .ok x) → q.Answers s b w → u.toOption = w.toOption := by
    rintro b _ w hb ⟨hu, x, rfl⟩ hw
    have hcb : s.MayRead c b := ⟨text, hf, hb⟩
    by_cases hba : TransGen s.MayRead b a
    · exact toOption_of_answers_ok hp hq hrest
        (fun text' hb' => hround b x hu text' hb' (hac.tail hcb) hba) hu hw
    · have hu' : p.Answers s b (.ok x) :=
        answers_mono hp.nodup_results hrest (List.nil_subset _) hu
      exact (hbelow b ⟨hac.tail hcb, hba⟩).answers hp hq hu' hw
  obtain ⟨hends, hasks⟩ := (alike_dialogue hs text).lockstep (hd c text hf) hPQ hvalues
  by_cases hcyclic : q.Cyclic c
  · -- the next cell around that cycle would have a value in the first pass, and so in this one
    obtain ⟨b, text', cause, hcb, hb', hto, hback, ho⟩ := hq.next_of_cyclic hf hcyclic
    obtain ⟨_, hu, x, rfl⟩ := hasks b hcb
    cases hround b x hu text' hb' (hac.trans hto) (hback.trans hca) _ ho
  · have ho := hends o' (hq.ends_of_find hf hcyclic ho')
    cases o' with
    | ok w => exact congrArg Except.ok (Option.some.inj ho).symm
    | error cause => cases ho

/-- **Any two passes agree on all cells** of a sheet whose cycles catch no failures. -/
theorem agree (hs : s.limit = none) (hd : s.Drawless)
    (hcatch : s.CyclesCall fun f => f ≠ .conditional .ifError ∧ f ≠ .conditional .isError)
    (hp : p.Sound s []) (hq : q.Sound s []) (a : String) : p.Agree q a := by
  by_cases ha : a ∈ s.formulas
  swap
  · intro o _ ho _
    obtain ⟨_, hf⟩ := hp.formula_of_find ho
    exact absurd (Sheet.mem_formulas hf) ha
  refine s.wellFounded_below.induction (C := fun a => p.Agree q a) ⟨a, ha⟩ ?_
  rintro ⟨a, ha⟩ ih
  -- a cell that one of the passes has evaluated holds a formula, so the induction reaches it
  have hbelow : ∀ b, s.Below b a → p.Agree q b := by
    intro b hb o o' ho ho'
    obtain ⟨_, hf⟩ := hp.formula_of_find ho
    exact ih ⟨b, Sheet.mem_formulas hf⟩ hb o o' ho ho'
  by_cases hcycle : TransGen s.MayRead a a
  -- on a cycle, a value in either pass is one in the other
  · intro o o' ho ho'
    have hpq := value_of_value hs hd hcatch hp hq hbelow p.results (List.suffix_refl _) a
    have hqp := value_of_value hs hd hcatch hq hp (fun b hb => (hbelow b hb).symm) q.results
      (List.suffix_refl _) a
    cases o with
    | ok v => rw [hpq v (mem_of_lookup ho) hcycle hcycle o' ho']
    | error cause =>
        cases o' with
        | ok v => cases hqp v (mem_of_lookup ho') hcycle hcycle _ ho
        | error cause' => rfl
  · have hacyclic : ∀ {r : Pass}, r.Sound s [] → ¬ r.Cyclic a := by
      rintro r hr ⟨path, hpath, hmem⟩
      have hring : s.Ring anyAnswer path :=
        (hr.rings path hpath).mono fun _ _ => Sheet.Reads.mono fun _ _ _ => trivial
      exact hcycle (hring.transGen hmem hmem)
    refine agree_of_reads hs hd hp hq (hacyclic hp) (hacyclic hq) fun b hb => ?_
    exact hbelow b ⟨.single hb, fun hba => hcycle (hba.head hb)⟩

end Pass

/-! ## Sessions -/

namespace Pass

variable {s : Sheet} {p q : Pass}

theorem Holds.mono {a : String} {o : Outcome} (h : p.Holds s a o) (hg : p.Grows q)
    (hq : q.Accounted s []) : q.Holds s a o :=
  h.imp id fun ho => lookup_of_suffix hq.nodup_results hg.results ho

theorem Holds.unique {a : String} {o o' : Outcome} (h : p.Holds s a o) (h' : p.Holds s a o')
    (hp : p.Accounted s []) : o = o' := by
  rcases h with ⟨hf, rfl⟩ | h
  · rcases h' with ⟨_, rfl⟩ | h'
    · rfl
    · obtain ⟨text, hf'⟩ := hp.formula_of_find h'
      cases hf.symm.trans hf'
  · rcases h' with ⟨hf, rfl⟩ | h'
    · obtain ⟨text, hf'⟩ := hp.formula_of_find h
      cases hf.symm.trans hf'
    · exact Option.some.inj (h.symm.trans h')

theorem Agree.shown {a : String} (h : p.Agree q a) (hp : p.Sound s []) (hq : q.Sound s [])
    {o o' : Outcome} (ho : p.Holds s a o) (ho' : q.Holds s a o') : o.shown = o'.shown := by
  have he : (readOutcome a o).toOption = (readOutcome a o').toOption :=
    h.answers hp hq (Sheet.Answers.of_holds ho _) (Sheet.Answers.of_holds ho' _)
  cases o with
  | ok v =>
      cases o' with
      | ok v' => exact Option.some.inj he
      | error cause => cases he
  | error cause =>
      cases o' with
      | ok v' => cases he
      | error cause' => rfl

end Pass

/-- What cells show that are evaluated one after the other. -/
def Session.shownEach (order : List String) : Session.Computation (List (String × Value)) :=
  order.mapM fun a => do return (a, ← Session.shown a)

namespace Sheet

/-- What cells show that are evaluated one after the other in a new session. -/
def shownInOrder (s : Sheet) (source : RandomSource) (order : List String) :
    Except Failure (List (String × Value)) :=
  (StateT.run (Session.shownEach order).run (Session.start s source)).1

/-- Whether the order in which all cells are evaluated makes no difference to what they show. -/
def IgnoresOrder (s : Sheet) : Prop :=
  ∀ source source' order order',
    (∀ a ∈ s.cells.keys, a ∈ order) → (∀ a ∈ s.cells.keys, a ∈ order') →
      ∃ values values', s.shownInOrder source order = .ok values ∧
        s.shownInOrder source' order' = .ok values' ∧
        ∀ a v v', (a, v) ∈ values → (a, v') ∈ values' → v = v'

/-- Cells that are evaluated one after the other show what the pass holds in the end. -/
theorem run_shownEach {s : Sheet} (href : ∀ a, ∃ deps, s.references a = .ok deps)
    (order : List String) : ∀ p : Pass, p.Accounted s [] →
      ∃ (outcomes : List (String × Outcome)) (q : Pass),
        StateT.run (Session.shownEach order).run ⟨s, p⟩ =
          (.ok (outcomes.map fun r => (r.1, r.2.shown)), ⟨s, q⟩) ∧
        q.Accounted s [] ∧ p.Grows q ∧ outcomes.map (·.1) = order ∧
        ∀ r ∈ outcomes, q.Holds s (Text.upper r.1) r.2 := by
  induction order with
  | nil => exact fun p hp => ⟨[], p, rfl, hp, .refl p, rfl, fun _ hr => absurd hr List.not_mem_nil⟩
  | cons a order ih =>
      intro p hp
      obtain ⟨o, q, hrun, hq, hg, ho⟩ := s.result_accounted href a hp
      obtain ⟨outcomes, q', hrun', hq', hg', horder, houtcomes⟩ := ih q hq
      refine ⟨(a, o) :: outcomes, q', ?_, hq', hg.trans hg', congrArg (a :: ·) horder, ?_⟩
      · have hshown : StateT.run (Session.shown a).run ⟨s, p⟩ = (.ok o.shown, ⟨s, q⟩) :=
          run_bind_ok (Session.run_result hrun)
        have hpair : StateT.run (do return (a, ← Session.shown a) : Session.Computation _).run
            ⟨s, p⟩ = (.ok (a, o.shown), ⟨s, q⟩) := run_bind_ok hshown
        unfold Session.shownEach at hrun' ⊢
        rw [List.mapM_cons, run_bind_ok hpair, run_bind_ok hrun']
        rfl
      · intro r hr
        rcases List.mem_cons.mp hr with rfl | hr
        · exact ho.mono hg' hq'
        · exact houtcomes r hr

/-- What cells show is what the pass holds in the end. -/
theorem shownInOrder_holds {s : Sheet} (hs : s.limit = none) (hrows : s.RowsReadable)
    (order : List String) : ∀ p : Pass, p.Sound s [] → ∃ values q,
      StateT.run (Session.shownEach order).run ⟨s, p⟩ = (.ok values, ⟨s, q⟩) ∧
      q.Sound s [] ∧ p.Grows q ∧
      ∀ a v, (a, v) ∈ values → ∃ o, q.Holds s (Text.upper a) o ∧ v = o.shown := by
  intro p hp
  obtain ⟨outcomes, q, hrun, hq, hg, _, houtcomes⟩ :=
    run_shownEach (references_ok hrows) order p hp.accounted
  refine ⟨_, q, hrun, hq.sound hs, hg, fun a v hv => ?_⟩
  obtain ⟨r, hr, he⟩ := List.mem_map.mp hv
  obtain ⟨rfl, rfl⟩ := Prod.mk.inj he
  exact ⟨r.2, houtcomes r hr, rfl⟩

/-- Formulas that call no random function use no random numbers. -/
theorem drawless_of_callees {s : Sheet} (hs : s.limit = none)
    (h : ∀ a ∈ s.cells.keys, ∀ text ∈ s.formula? a, ∀ f ∈ callees text, ∀ g, f ≠ .random g) :
    s.Drawless := by
  intro a text hf
  exact respected_drawless.outcomeAt hs 0 0 text (h a (mem_keys_of_formula? hf) text hf)

theorem ignoresOrder {s : Sheet} (hs : s.limit = none) (hrows : s.RowsReadable) (hd : s.Drawless)
    (hcatch : s.CyclesCall fun f => f ≠ .conditional .ifError ∧ f ≠ .conditional .isError) :
    s.IgnoresOrder := by
  intro source source' order order' _ _
  obtain ⟨values, p, hrun, hp, _, hvalues⟩ :=
    shownInOrder_holds hs hrows order _ (Pass.sound_start hs source)
  obtain ⟨values', q, hrun', hq, _, hvalues'⟩ :=
    shownInOrder_holds hs hrows order' _ (Pass.sound_start hs source')
  refine ⟨values, values', congrArg Prod.fst hrun, congrArg Prod.fst hrun', ?_⟩
  intro a v v' hv hv'
  obtain ⟨o, ho, rfl⟩ := hvalues a v hv
  obtain ⟨o', ho', rfl⟩ := hvalues' a v' hv'
  exact (Pass.agree hs hd hcatch hp hq (Text.upper a)).shown hp hq ho ho'

/-! ## Cycles on which failures are caught -/

/-- What one cell shows, as messages show it, when cells are evaluated one after the other. -/
def quotedInOrder (s : Sheet) (order : List String) (a : String) : Option String :=
  match s.shownInOrder (.scripted [] []) order with
  | .ok values => (values.lookup a).bind fun v => v.quoted.toOption
  | .error _ => none

theorem IgnoresOrder.quoted {s : Sheet} (h : s.IgnoresOrder) {order order' : List String}
    (hall : ∀ a ∈ s.cells.keys, a ∈ order) (hall' : ∀ a ∈ s.cells.keys, a ∈ order')
    {a x y : String} (hx : s.quotedInOrder order a = some x)
    (hy : s.quotedInOrder order' a = some y) : x = y := by
  obtain ⟨values, values', hrun, hrun', hsame⟩ :=
    h (.scripted [] []) (.scripted [] []) order order' hall hall'
  unfold quotedInOrder at hx hy
  rw [hrun] at hx
  rw [hrun'] at hy
  obtain ⟨v, hv, hx⟩ := Option.bind_eq_some_iff.mp hx
  obtain ⟨v', hv', hy⟩ := Option.bind_eq_some_iff.mp hy
  rw [hsame a v v' (Pass.mem_of_lookup hv) (Pass.mem_of_lookup hv')] at hx
  exact Option.some.inj (hx.symm.trans hy)

/-- A cycle with a formula that puts a value in the place of a failure.  Another cell that does so
is on that cycle only if it is evaluated while `A1` is. -/
def ifErrorCycle : Sheet :=
  .ofEntries [("A1", .text "=C1"), ("B1", .text "=IFERROR(A1+B1,1)"),
    ("C1", .text "=IFERROR(A1,B1)")]

/-- The same with formulas that look whether a cell fails. -/
def isErrorCycle : Sheet :=
  .ofEntries [("A1", .text "=C1"), ("B1", .text "=ISERROR(A1+B1)"),
    ("C1", .text "=ISERROR(A1)+B1")]

theorem not_ignoresOrder_ifErrorCycle : ¬ ifErrorCycle.IgnoresOrder := by
  intro h
  have ha : ifErrorCycle.quotedInOrder ["A1", "B1", "C1"] "B1" = some "'#ERROR!'" := by
    decide +kernel
  have hc : ifErrorCycle.quotedInOrder ["C1", "A1", "B1"] "B1" = some "1" := by decide +kernel
  exact absurd (h.quoted (by decide +kernel) (by decide +kernel) ha hc) (by decide)

theorem not_ignoresOrder_isErrorCycle : ¬ isErrorCycle.IgnoresOrder := by
  intro h
  have ha : isErrorCycle.quotedInOrder ["A1", "B1", "C1"] "B1" = some "'#ERROR!'" := by
    decide +kernel
  have hc : isErrorCycle.quotedInOrder ["C1", "A1", "B1"] "B1" = some "True" := by decide +kernel
  exact absurd (h.quoted (by decide +kernel) (by decide +kernel) ha hc) (by decide)

/-- Formulas that call one conditional function alone use no random numbers, and may call what is
allowed if that function is. -/
theorem drawless_and_cyclesCall {s : Sheet} (hs : s.limit = none) {c : Conditional}
    (h : ∀ a ∈ s.cells.keys, ∀ text ∈ s.formula? a, ∀ f ∈ callees text, f = .conditional c)
    {allowed : Function → Prop} (hc : allowed (.conditional c)) :
    s.Drawless ∧ s.CyclesCall allowed := by
  refine ⟨drawless_of_callees hs ?_, ?_⟩
  · intro a ha text hf f hcall g
    rw [h a ha text hf f hcall]
    exact Function.noConfusion
  · intro a text hf _ f hcall
    rw [h a (mem_keys_of_formula? hf) text hf f hcall]
    exact hc

theorem calls_ifErrorCycle : ∀ a ∈ ifErrorCycle.cells.keys, ∀ text ∈ ifErrorCycle.formula? a,
    ∀ f ∈ callees text, f = .conditional .ifError := by decide +kernel

theorem calls_isErrorCycle : ∀ a ∈ isErrorCycle.cells.keys, ∀ text ∈ isErrorCycle.formula? a,
    ∀ f ∈ callees text, f = .conditional .isError := by decide +kernel

/-- **The order makes no difference as long as the formulas on cycles catch no failures**, and this
is the most that can be said of the functions that they call: with either of the two functions that
catch failures there is a sheet in which the order makes a difference. -/
theorem ignoresOrder_iff (allowed : Function → Prop) :
    (∀ s : Sheet, s.limit = none → s.RowsReadable → s.Drawless → s.CyclesCall allowed →
        s.IgnoresOrder) ↔
      ¬ allowed (.conditional .ifError) ∧ ¬ allowed (.conditional .isError) := by
  constructor
  · intro h
    refine ⟨fun hf => not_ignoresOrder_ifErrorCycle ?_, fun hf => not_ignoresOrder_isErrorCycle ?_⟩
    · obtain ⟨hd, hcalls⟩ := drawless_and_cyclesCall rfl calls_ifErrorCycle hf
      exact h _ rfl (by decide +kernel) hd hcalls
    · obtain ⟨hd, hcalls⟩ := drawless_and_cyclesCall rfl calls_isErrorCycle hf
      exact h _ rfl (by decide +kernel) hd hcalls
  · rintro ⟨hif, his⟩ s hs hrows hd hcalls
    refine ignoresOrder hs hrows hd fun a text hf hcycle f hc => ⟨?_, ?_⟩
    · rintro rfl
      exact hif (hcalls a text hf hcycle _ hc)
    · rintro rfl
      exact his (hcalls a text hf hcycle _ hc)

/-- In one order all cells of this sheet fail, in the other one `B1` has a value. -/
theorem isErrorCycle_order :
    isErrorCycle.limit = none ∧ isErrorCycle.RowsReadable ∧ isErrorCycle.Drawless ∧
      isErrorCycle.quotedInOrder ["A1", "B1", "C1"] "B1" = some "'#ERROR!'" ∧
      isErrorCycle.quotedInOrder ["C1", "A1", "B1"] "B1" = some "True" ∧
      ¬ isErrorCycle.IgnoresOrder := by
  have hd : isErrorCycle.Drawless :=
    (@drawless_and_cyclesCall _ rfl _ calls_isErrorCycle (fun _ => True) trivial).1
  exact ⟨rfl, by decide +kernel, hd, by decide +kernel, by decide +kernel,
    not_ignoresOrder_isErrorCycle⟩

end Sheet

end Worksheet
