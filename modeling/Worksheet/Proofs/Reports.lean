import Worksheet.Proofs.InProgress

/-!
# How often a cycle is reported

A path is recorded whenever a formula asks for a cell in progress.  The formula gets a failure, and
as long as that ends it, the cell that closed the cycle is done after that and the path cannot be
found again.  A formula that catches the failure can go on and ask for the same cell once more, and
then the same path is recorded once more.

That is the only way in which a cycle is reported twice: a path that was recorded before either has
a cell that is done, or the formula that closed it is still in progress, and on the next path around
the same cycle it can only be the innermost one.
-/

namespace Worksheet

open Formula Dialogue Relation

/-- Whether a dialogue can be told that a cell has failed and then ask for that cell again. -/
def Formula.Dialogue.Repeats {α : Type} (d : Dialogue α) (b : String) : Prop :=
  ∃ depth next cause, d.Reaches anyAnswer (.read b depth next) ∧
    (next (.error cause)).Asks anyAnswer b

/-- A dialogue that the first failure ends does not ask for a cell again that has failed. -/
theorem Formula.Dialogue.PassesFailures.not_repeats {α : Type} {d : Dialogue (Except Failure α)}
    (h : d.PassesFailures) (b : String) : ¬ d.Repeats b := by
  rintro ⟨depth, next, cause, hreaches, hasks⟩
  have hnext : (Dialogue.read b depth next).PassesFailures := by
    refine Relation.ReflTransGen.head_induction_on
      (motive := fun d _ => d.PassesFailures → (Dialogue.read b depth next).PassesFailures)
      hreaches (fun h => h) ?_ h
    intro d d' hstep _ ih hd
    refine ih ?_
    cases hstep with
    | read _ => exact hd.2 _
    | fraction x => exact hd x
    | integer i => exact hd i
  rw [hnext.1 cause] at hasks
  exact not_asks_done hasks

namespace Sheet

/-- Whether the formula of a cell can come to ask again for a cell that has failed. -/
def AsksAgain (s : Sheet) (a b : String) : Prop :=
  ∃ text depth, s.formula? a = some text ∧ (outcomeAt s.setting depth text).Repeats b

/-- Whether the formulas that can come to ask for their own cell, directly or through others and at
any level of nesting, call no functions but given ones. -/
def RingsCall (s : Sheet) (allowed : Function → Prop) : Prop :=
  ∀ a text, s.formula? a = some text → TransGen (s.Inquires anyAnswer) a a →
    ∀ f ∈ callees text, allowed f

/-- A formula that catches no failures does not ask for a cell again that has failed. -/
theorem not_asksAgain {s : Sheet} {a : String}
    (h : ∀ text, s.formula? a = some text →
      ∀ f ∈ callees text, f ≠ .conditional .ifError ∧ f ≠ .conditional .isError) (b : String) :
    ¬ s.AsksAgain a b := by
  rintro ⟨text, depth, hf, hrepeats⟩
  exact (respected_passesFailures.outcomeAt_self depth text (h text hf)).not_repeats b hrepeats

/-- If two paths go around the same cycle, they are the same, and the formula that has closed them
can ask for a cell again that has failed. -/
def Twice (s : Sheet) (path path' : List String) : Prop :=
  path.dropLast ~r path'.dropLast →
    path = path' ∧ ∃ way a b, path = way ++ [a, b] ∧ s.AsksAgain a b

end Sheet

/-! ## Paths back -/

theorem cyclePath_dropLast (stack : List String) (a : String) :
    (cyclePath stack a).dropLast = (stack.takeWhile (· ≠ a) ++ [a]).reverse :=
  List.dropLast_concat

/-- The cell that closes a cycle is on it. -/
theorem head_mem_dropLast_cyclePath (a : String) (outer : List String) (b : String) :
    a ∈ (cyclePath (a :: outer) b).dropLast := by
  rw [cyclePath_dropLast]
  by_cases h : a = b
  · simp [h]
  · simp [h]

/-- Where a path back leads to is told by its length. -/
theorem eq_of_length_cyclePath {stack : List String} {a b : String} (ha : a ∈ stack)
    (hb : b ∈ stack)
    (h : (cyclePath stack a).dropLast.length = (cyclePath stack b).dropLast.length) : a = b := by
  obtain ⟨before, after, he, hn⟩ := List.eq_append_cons_of_mem ha
  obtain ⟨before', after', he', hn'⟩ := List.eq_append_cons_of_mem hb
  have hlength : before.length = before'.length := by
    have hpath : cyclePath stack a = a :: before.reverse ++ [a] := he ▸ Sheet.cyclePath_eq hn
    have hpath' : cyclePath stack b = b :: before'.reverse ++ [b] := he' ▸ Sheet.cyclePath_eq hn'
    rw [hpath, hpath'] at h
    simpa using h
  have hsplit := List.append_inj (he.symm.trans he') hlength
  exact (List.cons.inj hsplit.2).1

/-- A path back ends with the cell that has closed it. -/
theorem exists_cyclePath_eq (outer : List String) (a b : String) :
    ∃ way, cyclePath (a :: outer) b = way ++ [a, b] := by
  by_cases h : a = b
  · subst h
    exact ⟨[], by simp [cyclePath]⟩
  · refine ⟨((outer.takeWhile (· ≠ b)) ++ [b]).reverse, ?_⟩
    simp [cyclePath, h]

/-! ## What is recorded -/

namespace Machine

variable {s : Sheet} {m m' : Machine} {p q : Pass} {stack stack' : List Activation}

/-- The path back from a cell in progress to itself or to one around it, where the formula of the
former has been told of the failure. -/
structure Told (s : Sheet) (a : Activation) (outer : List Activation) (path : List String) :
    Prop where
  closed : ∃ b ∈ (a :: outer).map (·.cell), path = cyclePath ((a :: outer).map (·.cell)) b ∧
    ∃ text depth depth' next cause, s.formula? a.cell = some text ∧
      (outcomeAt s.setting depth text).Reaches anyAnswer (.read b depth' next) ∧
      (next (.error cause)).Reaches anyAnswer a.dialogue

namespace Told

variable {a : Activation} {outer : List Activation} {path : List String}

theorem goOn {cell : String} {d d' : Dialogue Outcome} (h : Told s ⟨cell, d⟩ outer path)
    (hd : d.Reaches anyAnswer d') : Told s ⟨cell, d'⟩ outer path := by
  obtain ⟨b, hb, hpath, text, depth, depth', next, cause, hf, hreaches, hafter⟩ := h.closed
  exact ⟨b, hb, hpath, text, depth, depth', next, cause, hf, hreaches, hafter.trans hd⟩

theorem mem_stack (h : Told s a outer path) {c : String} (hc : c ∈ path.dropLast) :
    c ∈ (a :: outer).map (·.cell) := by
  obtain ⟨b, hb, rfl, _⟩ := h.closed
  exact Sheet.mem_of_mem_cyclePath hb (List.mem_of_mem_dropLast hc)

theorem mem (h : Told s a outer path) : a.cell ∈ path.dropLast := by
  obtain ⟨b, _, rfl, _⟩ := h.closed
  exact head_mem_dropLast_cyclePath _ _ _

/-- When the formula asks for a cell in progress again, and the path is around the same cycle, it is
the same path. -/
theorem twice {cell asked : String} {depth : Nat} {next : Except Failure Value → Dialogue Outcome}
    (h : Told s ⟨cell, .read asked depth next⟩ outer path)
    (hasked : asked ∈ cell :: outer.map (·.cell)) :
    s.Twice path (cyclePath (cell :: outer.map (·.cell)) asked) := by
  intro hrotated
  obtain ⟨b, hb, rfl, text, depth₀, depth', next', cause, hf, hreaches, hafter⟩ := h.closed
  obtain rfl : b = asked := eq_of_length_cyclePath hb hasked hrotated.perm.length_eq
  obtain ⟨way, hway⟩ := exists_cyclePath_eq (outer.map (·.cell)) cell b
  exact ⟨rfl, way, cell, b, hway, text, depth₀, hf, depth', next', cause, hreaches, _, _, hafter⟩

end Told

/-- What holds of the recorded paths while cells are in progress: one that goes through no cell that
is done has been closed by a formula that is still in progress. -/
structure Recorded (s : Sheet) (stack : List Activation) (p : Pass) : Prop where
  orderly : Orderly s stack p
  paths : ∀ path ∈ p.cycles, (∃ c ∈ path.dropLast, c ∈ p.results.map (·.1)) ∨
    ∃ inner a outer, stack = inner ++ a :: outer ∧ Told s a outer path
  twice : p.cycles.Pairwise s.Twice

namespace Recorded

variable {outer : List Activation} {cell asked : String}

/-- The next path around the same cycle is the same path. -/
theorem twice_close {depth : Nat} {next : Except Failure Value → Dialogue Outcome}
    (h : Recorded s (⟨cell, .read asked depth next⟩ :: outer) p)
    (hasked : asked ∈ cell :: outer.map (·.cell)) {path : List String} (hpath : path ∈ p.cycles) :
    s.Twice path (cyclePath (cell :: outer.map (·.cell)) asked) := by
  intro hrotated
  rcases h.paths path hpath with ⟨c, hc, hdone⟩ | ⟨inner, a, outer', hstack, htold⟩
  -- the cells of the new path are in progress, so no cell of the old one is done
  · have hcell : c ∈ cell :: outer.map (·.cell) :=
      Sheet.mem_of_mem_cyclePath hasked (List.mem_of_mem_dropLast (hrotated.mem_iff.mp hc))
    exact absurd rfl ((List.nodup_append.mp h.orderly.distinct).2.2 c hcell c hdone)
  -- the innermost cell is on both paths, so it is the one that has closed the old one
  · have hcell : cell ∈ (a :: outer').map (·.cell) :=
      htold.mem_stack (hrotated.mem_iff.mpr (head_mem_dropLast_cyclePath _ _ _))
    have hinner : inner = [] := by
      have horderly : Orderly s (inner ++ a :: outer') p := hstack ▸ h.orderly
      refine horderly.eq_nil_of_head_mem ?_
      rw [← hstack]
      rintro _ ⟨⟩
      exact hcell
    subst hinner
    obtain ⟨rfl, rfl⟩ := List.cons.inj hstack
    exact htold.twice hasked hrotated

/-- The innermost dialogue goes on. -/
theorem goOn {d d' : Dialogue Outcome} (h : Recorded s (⟨cell, d⟩ :: outer) p)
    (hresults : q.results = p.results) (hcycles : q.cycles = p.cycles)
    (hd : d.Reaches anyAnswer d') : Recorded s (⟨cell, d'⟩ :: outer) q where
  orderly := h.orderly.goOn hresults hd
  paths := by
    rw [hresults, hcycles]
    intro path hpath
    refine (h.paths path hpath).imp_right ?_
    rintro ⟨inner, a, outer', hstack, htold⟩
    cases inner with
    | nil =>
        obtain ⟨rfl, rfl⟩ := List.cons.inj hstack
        exact ⟨[], _, _, rfl, htold.goOn hd⟩
    | cons b inner =>
        obtain ⟨rfl, rfl⟩ := List.cons.inj hstack
        exact ⟨_ :: inner, a, outer', rfl, htold⟩
  twice := by
    rw [hcycles]
    exact h.twice

/-- The innermost formula asks for a cell in progress. -/
theorem close {depth : Nat} {next : Except Failure Value → Dialogue Outcome}
    (h : Recorded s (⟨cell, .read asked depth next⟩ :: outer) p)
    (hasked : asked ∈ cell :: outer.map (·.cell)) :
    let path := cyclePath (cell :: outer.map (·.cell)) asked
    Recorded s (⟨cell, next (.error (.circular path))⟩ :: outer) (p.recordCycle path) := by
  intro path
  have hon : Recorded s (⟨cell, next (.error (.circular path))⟩ :: outer) p :=
    h.goOn rfl rfl (.single (.read trivial))
  refine ⟨h.orderly.goOn rfl (.single (.read trivial)), ?_, ?_⟩
  · intro path' hpath'
    rcases List.mem_append.mp hpath' with hpath' | hpath'
    · exact hon.paths path' hpath'
    · obtain rfl := List.mem_singleton.mp hpath'
      obtain ⟨text, depth', hf, hreaches⟩ := h.orderly.begun _ List.mem_cons_self
      exact .inr ⟨[], _, outer, rfl, asked, hasked, rfl, text, depth', depth, next, _, hf,
        hreaches, .refl⟩
  · refine List.pairwise_append.mpr ⟨h.twice, List.pairwise_singleton _ _, ?_⟩
    intro path' hpath' path'' hpath''
    obtain rfl := List.mem_singleton.mp hpath''
    exact h.twice_close hasked hpath'

/-- **What each step keeps of the recorded paths.** -/
theorem change (h : Recorded s stack p) (hc : Change s stack p stack' q) :
    Recorded s stack' q := by
  have horderly := h.orderly.change hc
  cases hc with
  | search => exact h
  | take depth hfresh hn hf =>
      refine ⟨horderly, fun path hpath => (h.paths path hpath).imp_right ?_, h.twice⟩
      rintro ⟨inner, a, outer, rfl, htold⟩
      exact ⟨_ :: inner, a, outer, rfl, htold⟩
  | answer hstep hresults hcycles => exact h.goOn hresults hcycles (.single hstep)
  | close hasked hpath => exact hpath ▸ h.close hasked
  | @done outer p cell o =>
      refine ⟨horderly, fun path hpath => ?_, h.twice⟩
      rcases h.paths path hpath with ⟨c, hc, hdone⟩ | ⟨inner, a, outer', hstack, htold⟩
      · exact .inl ⟨c, hc, List.mem_cons_of_mem _ hdone⟩
      cases inner with
      | nil =>
          -- the formula that has closed the path is the one that is done
          obtain ⟨rfl, rfl⟩ := List.cons.inj hstack
          exact .inl ⟨cell, htold.mem, List.mem_cons_self⟩
      | cons b inner =>
          obtain ⟨rfl, rfl⟩ := List.cons.inj hstack
          exact .inr ⟨inner, a, outer', rfl, htold⟩

/-- Between two calls, each recorded path goes through a cell that is done. -/
theorem of_accounted (h : p.Accounted s []) (htwice : p.cycles.Pairwise s.Twice) :
    Recorded s [] p where
  orderly := .nil h.nodup_results
  paths := by
    intro path hpath
    obtain ⟨_, a, way, rfl, _⟩ := h.rings path hpath
    have ha : a ∈ (a :: way ++ [a]).dropLast := by
      rw [List.dropLast_concat]
      exact List.mem_cons_self
    have hcyclic : p.Cyclic a := ⟨_, hpath, List.mem_of_mem_dropLast ha⟩
    exact .inl ⟨a, ha, (h.members a hcyclic).resolve_left List.not_mem_nil⟩
  twice := htwice

end Recorded

end Machine

namespace Session

variable {sheet : Sheet}

/-- Asking for a cell keeps what has been said of the recorded paths. -/
theorem twice_result {p : Pass} (name : String)
    (h : p.Accounted sheet [] ∧ p.cycles.Pairwise sheet.Twice) :
    (StateT.run (sheet.result name).run p).2.Accounted sheet [] ∧
      (StateT.run (sheet.result name).run p).2.cycles.Pairwise sheet.Twice := by
  obtain ⟨m, hruns, hend⟩ := Machine.exists_endsIn sheet p name
  have hrecorded : Machine.Recorded sheet m.stack m.pass := by
    refine hruns.keep (fun hc h => h.change hc) ?_
    obtain ⟨hstack, hpass⟩ := Machine.start_same sheet p (Text.upper name)
    rw [hstack, hpass]
    exact .of_accounted h.1 h.2
  obtain ⟨_, q, hrun, haccounted, _⟩ := Sheet.Keeps.result (False.elim : False → _) name p h.1
  rw [hrun]
  rw [hend.pass, hrun] at hrecorded
  exact ⟨haccounted, hrecorded.twice⟩

/-- Whatever is asked for between two changes of the cells, paths around one cycle are the same, and
their last formula can ask again for a cell that has failed. -/
theorem accounted_twice_after (sheet : Sheet) (source : RandomSource) (calls : List Call) :
    ∃ q : Pass, after (start sheet source) calls = ⟨sheet, q⟩ ∧ q.Accounted sheet [] ∧
      q.cycles.Pairwise sheet.Twice :=
  after_keeps (I := fun p => p.Accounted sheet [] ∧ p.cycles.Pairwise sheet.Twice)
    (fun name _ h => twice_result name h) calls
    ⟨Pass.accounted_start sheet source, List.Pairwise.nil⟩

end Session

/-! ## Sheets that report each cycle once -/

namespace Sheet

/-- Whether each cycle is reported once, whatever is asked for between two changes of the cells. -/
def ReportsOnce (s : Sheet) : Prop :=
  ∀ source calls, ((Session.start s source).after calls).pass.cycles.Pairwise
    fun path path' => ¬ path.dropLast ~r path'.dropLast

theorem reportsOnce {s : Sheet}
    (h : s.RingsCall fun f => f ≠ .conditional .ifError ∧ f ≠ .conditional .isError) :
    s.ReportsOnce := by
  intro source calls
  obtain ⟨q, hq, haccounted, htwice⟩ := Session.accounted_twice_after s source calls
  rw [hq]
  refine htwice.imp_of_mem fun {path path'} hpath _ htwice hrotated => ?_
  obtain ⟨_, way, a, b, rfl, hagain⟩ := htwice hrotated
  have hring : IsRing (s.Inquires anyAnswer) (way ++ [a, b]) :=
    (haccounted.rings _ hpath).mono fun _ _ => Inquires.mono fun _ _ _ => trivial
  have ha : a ∈ way ++ [a, b] := List.mem_append_right _ List.mem_cons_self
  exact not_asksAgain (fun text hf => h a text hf (hring.transGen ha ha)) b hagain

/-- A cell that adds two values in place of its own failure. -/
def ifErrorTwice : Sheet :=
  .ofEntries [("A1", .text "=IFERROR(A1,0)+IFERROR(A1,0)")]

/-- A cell that looks twice whether it fails. -/
def isErrorTwice : Sheet :=
  .ofEntries [("A1", .text "=ISERROR(A1)+ISERROR(A1)")]

/-- Formulas that call one function alone call what is allowed if that function is. -/
theorem ringsCall_of_callees {s : Sheet} {g : Function}
    (h : ∀ a ∈ s.cells.keys, ∀ text ∈ s.formula? a, ∀ f ∈ callees text, f = g)
    {allowed : Function → Prop} (hg : allowed g) : s.RingsCall allowed := by
  intro a text hf _ f hcall
  rw [h a (mem_keys_of_formula? hf) text hf f hcall]
  exact hg

theorem callees_ifErrorTwice : ∀ a ∈ ifErrorTwice.cells.keys, ∀ text ∈ ifErrorTwice.formula? a,
    ∀ f ∈ callees text, f = .conditional .ifError := by decide +kernel

theorem callees_isErrorTwice : ∀ a ∈ isErrorTwice.cells.keys, ∀ text ∈ isErrorTwice.formula? a,
    ∀ f ∈ callees text, f = .conditional .isError := by decide +kernel

theorem cycles_ifErrorTwice :
    ((Session.start ifErrorTwice (.scripted [] [])).after [.result "A1"]).pass.cycles =
      [["A1", "A1"], ["A1", "A1"]] := by
  decide +kernel

theorem cycles_isErrorTwice :
    ((Session.start isErrorTwice (.scripted [] [])).after [.result "A1"]).pass.cycles =
      [["A1", "A1"], ["A1", "A1"]] := by
  decide +kernel

theorem not_reportsOnce {s : Sheet} {source : RandomSource} {calls : List Session.Call}
    {path : List String}
    (h : ((Session.start s source).after calls).pass.cycles = [path, path]) : ¬ s.ReportsOnce := by
  intro honce
  have hpairwise := honce source calls
  rw [h] at hpairwise
  exact (List.pairwise_cons.mp hpairwise).1 path List.mem_cons_self (List.IsRotated.refl _)

/-- **A cycle is reported again only along the same path, and only when its last formula asks again
for a cell that has failed.**  So each cycle is reported once as long as the formulas on cycles catch
no failures, and this is the most that can be said of the functions that they call: with either of
the two functions that catch failures there is a sheet that reports a cycle twice. -/
theorem reportsOnce_iff (allowed : Function → Prop) :
    (∀ s source calls, ((Session.start s source).after calls).pass.cycles.Pairwise s.Twice) ∧
      ((∀ s : Sheet, s.RingsCall allowed → s.ReportsOnce) ↔
        ¬ allowed (.conditional .ifError) ∧ ¬ allowed (.conditional .isError)) := by
  refine ⟨fun s source calls => ?_, fun h => ?_, ?_⟩
  · obtain ⟨q, hq, _, htwice⟩ := Session.accounted_twice_after s source calls
    exact hq ▸ htwice
  · refine ⟨fun hf => not_reportsOnce cycles_ifErrorTwice (h _ ?_),
      fun hf => not_reportsOnce cycles_isErrorTwice (h _ ?_)⟩
    · exact ringsCall_of_callees callees_ifErrorTwice hf
    · exact ringsCall_of_callees callees_isErrorTwice hf
  · rintro ⟨hif, his⟩ s hs
    refine reportsOnce fun a text hf hring f hc => ⟨?_, ?_⟩
    · rintro rfl
      exact hif (hs a text hf hring _ hc)
    · rintro rfl
      exact his (hs a text hf hring _ hc)

/-- The cell of this sheet lies on one cycle, and that is reported twice. -/
theorem ifErrorTwice_reports :
    ((Session.start ifErrorTwice (.scripted [] [])).after [.result "A1"]).pass.cycles =
        [["A1", "A1"], ["A1", "A1"]] ∧
      ¬ ifErrorTwice.ReportsOnce :=
  ⟨cycles_ifErrorTwice, not_reportsOnce cycles_ifErrorTwice⟩

end Sheet

end Worksheet
