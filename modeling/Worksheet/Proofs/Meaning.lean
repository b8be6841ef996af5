import Worksheet.Proofs.Session

/-!
# What a cell means

A cell means its raw value if it holds no formula.  A formula means what it comes to when each cell
that it reads gives what that cell means; cells that it does not come to read need no meaning.  This
is the least relation of the kind: a cell whose meaning would rest on itself has none.

A session knows nothing of meanings.  It evaluates cells in the order in which it comes across them,
keeps outcomes, and fails the cells that it finds on cycles.  It still gives each cell that has a
meaning this very meaning, whatever it was asked for before: no ring of questions goes through such
a cell.
-/

namespace Worksheet

open Formula Dialogue

namespace Sheet

mutual

/-- What a cell means. -/
inductive Means (s : Sheet) : String → Outcome → Prop where
  | plain {a : String} : s.formula? a = none → Means s a (.ok (s.cells.get a))
  | formula {a text : String} {o : Outcome} :
      s.formula? a = some text → ComesTo s (s.dialogue text) o → Means s a o

/-- What a dialogue comes to when each cell answers with what it means. -/
inductive ComesTo (s : Sheet) : Dialogue Outcome → Outcome → Prop where
  | done {o : Outcome} : ComesTo s (.done o) o
  | read {b : String} {depth : Nat} {next : Except Failure Value → Dialogue Outcome}
      {v o : Outcome} :
      Means s b v → ComesTo s (next (readOutcome b v)) o → ComesTo s (.read b depth next) o

end

/-- What a dialogue comes to is its result in any context that answers with what cells mean. -/
theorem ComesTo.run {s : Sheet} {answer : String → Except Failure Value}
    (ha : ∀ b v, s.Means b v → answer b = readOutcome b v) (fraction : Id Binary64)
    (integer : Int → Int → Id Int) : ∀ {d : Dialogue Outcome} {o : Outcome}, s.ComesTo d o →
      d.run (m := Id) (fun b _ => answer b) fraction integer = o
  | _, _, .done => rfl
  | _, _, @ComesTo.read _ b depth next v o hb hd => by
      show (next (answer b)).run (m := Id) (fun b _ => answer b) fraction integer = o
      rw [ha b v hb]
      exact ComesTo.run ha fraction integer hd

end Sheet

namespace Pass.Sound

variable {s : Sheet} {p : Pass}

/-- A cell on a cycle reads a cell on the same cycle. -/
theorem reads_of_cyclic {stack : List String} (h : p.Sound s stack) {path : List String}
    (hp : path ∈ p.cycles) {a : String} (ha : a ∈ path) :
    ∃ b ∈ path, s.Reads (p.Answers s) a b :=
  (h.rings path hp).exists_next ha

/-- Why the outcome of a cell on no cycle is what it is. -/
theorem ends_of_find {stack : List String} (h : p.Sound s stack) {a text : String} {o : Outcome}
    (hf : s.formula? a = some text) (hc : ¬ p.Cyclic a) (ho : p.find? a = some o) :
    (s.dialogue text).Ends (p.Answers s) o := by
  obtain ⟨rest, hr⟩ := suffix_of_lookup ho
  obtain ⟨text', hf', hends⟩ := h.ends_of_not_cyclic hr hc
  obtain rfl : text = text' := Option.some.inj (hf.symm.trans hf')
  refine hends.mono fun b v => ?_
  exact answers_mono h.nodup_results ((List.suffix_cons _ _).trans hr) (List.nil_subset _)

theorem formula_of_find {stack : List String} (h : p.Sound s stack) {a : String} {o : Outcome}
    (ho : p.find? a = some o) : ∃ text, s.formula? a = some text :=
  h.accounted.formula_of_find ho

end Pass.Sound

/-- A cell on no cycle that can have one outcome alone has one answer. -/
theorem Pass.eq_of_holds {s : Sheet} (hs : s.limit = none) {p : Pass} {a : String} {o : Outcome}
    {w : Except Failure Value} (hc : ¬ p.Cyclic a) (h : ∀ o', p.Holds s a o' → o' = o)
    (hw : p.Answers s a w) : w = readOutcome a o := by
  cases hw with
  | plain hf =>
      rw [← h _ (.inl ⟨hf, rfl⟩)]
      rfl
  | found ho => rw [← h _ (.inr ho)]
  | cyclic hpath hmem => exact absurd ⟨_, hpath, hmem⟩ hc
  | outOfReach hlimit _ => exact absurd hs hlimit

namespace Sheet

variable {s : Sheet} {p : Pass}

mutual

/-- A cell that means something is on no cycle of a pass, and can have nothing else as its
outcome. -/
theorem Means.holds (hp : p.Sound s []) : ∀ {a : String} {o : Outcome}, s.Means a o →
    ¬ p.Cyclic a ∧ ∀ o', p.Holds s a o' → o' = o
  | a, _, .plain hf => by
      have hn : ∀ text, s.formula? a ≠ some text := by
        intro text ht
        rw [hf] at ht
        cases ht
      refine ⟨?_, ?_⟩
      · rintro ⟨path, hpath, ha⟩
        obtain ⟨b, _, text, ht, _⟩ := hp.reads_of_cyclic hpath ha
        exact hn text ht
      · rintro o' (⟨_, ho⟩ | ho)
        · exact ho
        · obtain ⟨text, ht⟩ := hp.formula_of_find ho
          exact absurd ht (hn text)
  | a, _, @Means.formula _ _ text _ hf hd => by
      obtain ⟨hasks, hends⟩ := ComesTo.holds hp hd
      -- on a cycle the cell would read one that is on the same cycle and has a meaning
      have hc : ¬ p.Cyclic a := by
        rintro ⟨path, hpath, ha⟩
        obtain ⟨b, hb, text', hf', hb'⟩ := hp.reads_of_cyclic hpath ha
        obtain rfl : text = text' := Option.some.inj (hf.symm.trans hf')
        exact hasks b hb' ⟨path, hpath, hb⟩
      refine ⟨hc, ?_⟩
      rintro o' (⟨hn, _⟩ | ho)
      · rw [hf] at hn
        cases hn
      · exact hends o' (hp.ends_of_find hf hc ho)

/-- A dialogue that comes to something asks for no cell on a cycle, and ends in nothing else. -/
theorem ComesTo.holds (hp : p.Sound s []) : ∀ {d : Dialogue Outcome} {o : Outcome},
    s.ComesTo d o → (∀ b, d.Asks (p.Answers s) b → ¬ p.Cyclic b) ∧
      ∀ o', d.Ends (p.Answers s) o' → o' = o
  | _, _, .done => ⟨fun _ hb => absurd hb not_asks_done, fun _ ho => (ends_done ho).symm⟩
  | _, _, @ComesTo.read _ b _ _ v _ hb hd => by
      obtain ⟨hcyclic, hholds⟩ := Means.holds hp hb
      obtain ⟨hasks, hends⟩ := ComesTo.holds hp hd
      -- so there is one answer to the first question
      have hanswer : ∀ w, p.Answers s b w → w = readOutcome b v := fun _ hw =>
        Pass.eq_of_holds hp.unlimited hcyclic hholds hw
      refine ⟨?_, ?_⟩
      · intro c hc
        rcases asks_read hc with rfl | ⟨w, hw, hc⟩
        · exact hcyclic
        · rw [hanswer w hw] at hc
          exact hasks c hc
      · intro o' ho
        obtain ⟨w, hw, ho⟩ := ends_read ho
        rw [hanswer w hw] at ho
        exact hends o' ho

end

end Sheet

namespace Session

/-- **A session gives each cell that means something what it means**, whatever it has been asked for
before, and whatever lies on cycles around that cell or in a branch that its formula does not
take. -/
theorem result_of_means {sheet : Sheet} (source : RandomSource) (hs : sheet.limit = none)
    (hrows : sheet.RowsReadable) (calls : List Call) {address : String} {o : Outcome}
    (h : sheet.Means (Text.upper address) o) :
    (StateT.run (result address).run ((start sheet source).after calls)).1 = .ok o := by
  obtain ⟨p, hp, hsound⟩ := after_sound hs hrows calls _ (Pass.sound_start hs source)
  obtain ⟨o', q, hrun, hq, _, hholds⟩ := Sheet.result_evaluated hs hrows address p hsound
  rw [start, hp, run_result hrun]
  exact congrArg Except.ok ((h.holds hq).2 o' hholds)

/-- A sheet in which the formula of `A1` mentions a cycle and does not come to read it. -/
def besideCycle : Sheet :=
  .ofEntries [("A1", .text "=IF(B1>1,B1*D1,C1)"), ("B1", .text "=D1+1"), ("C1", .text "=E1"),
    ("D1", .number (.int 2)), ("E1", .text "=C1+A1")]

theorem means_besideCycle : besideCycle.Means "A1" (.ok (.number (.int 6))) := by
  have hD : besideCycle.Means "D1" (.ok (.number (.int 2))) := .plain (by decide +kernel)
  have hB : besideCycle.Means "B1" (.ok (.number (.int 3))) := by
    refine .formula (by decide +kernel : besideCycle.formula? "B1" = some "=D1+1") ?_
    have hparse : parse "=D1+1" = .ok (.binary .add (.cell "D1") (.number "1")) := by cbv
    unfold Sheet.dialogue outcomeAt
    rw [hparse]
    exact .read hD .done
  refine .formula (by decide +kernel : besideCycle.formula? "A1" = some "=IF(B1>1,B1*D1,C1)") ?_
  have hparse : parse "=IF(B1>1,B1*D1,C1)" = .ok (.call "IF("
      [.binary (.compare .greater) (.cell "B1") (.number "1"),
        .binary .mul (.cell "B1") (.cell "D1"), .cell "C1"]) := by cbv
  unfold Sheet.dialogue outcomeAt
  rw [hparse]
  exact .read hB (.read hB (.read hD .done))

/-- The cell of `besideCycle` that means something, after its cycle has been found. -/
theorem result_besideCycle :
    besideCycle.limit = none ∧ besideCycle.RowsReadable ∧
      besideCycle.Means (Text.upper "a1") (.ok (.number (.int 6))) ∧
      (StateT.run (result "a1").run ((start besideCycle (.scripted [] [])).after
        [.result "C1", .shownAll])).1 = .ok (.ok (.number (.int 6))) := by
  have hrows : besideCycle.RowsReadable := by decide +kernel
  have hmeans : besideCycle.Means (Text.upper "a1") (.ok (.number (.int 6))) := by
    rw [(by decide +kernel : Text.upper "a1" = "A1")]
    exact means_besideCycle
  exact ⟨rfl, hrows, hmeans, result_of_means _ rfl hrows _ hmeans⟩

end Session

end Worksheet
