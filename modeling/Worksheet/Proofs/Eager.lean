import Worksheet.Proofs.Cycles

/-!
# No value escapes a cycle

The conditional functions aside, an expression needs the value of every populated cell that it
reads, so a cell that has a value has it from cells that had theirs before.  That cannot go on
around a cycle: in a sheet whose formulas call no conditional function, no cell that leads to a
cycle ever has a value, in whichever order cells are evaluated.
-/

namespace Worksheet

open Formula Dialogue Relation

namespace Formula

variable {s : Setting} {α β : Type}

/-! ## What a value requires -/

/-- Whether an evaluation comes to no value unless a cell gives it one. -/
def Requires (x : Evaluation α) (b : String) : Prop :=
  ∀ answers : Answering, ∀ a, x.run.Ends answers (.ok a) → ∃ v, answers b (.ok v)

namespace Requires

variable {b : String}

theorem throw (cause : Failure) (b : String) :
    Requires (MonadExcept.throw cause : Evaluation α) b :=
  fun _ _ h => nomatch ends_done h

theorem bind_left {x : Evaluation α} {f : α → Evaluation β} (h : Requires x b) :
    Requires (x >>= f) b := by
  intro answers c hc
  obtain ⟨r, hr, hc⟩ := ends_bind hc
  cases r with
  | ok a => exact h answers a hr
  | error cause => cases ends_done hc

theorem bind_right {x : Evaluation α} {f : α → Evaluation β} (h : ∀ a, Requires (f a) b) :
    Requires (x >>= f) b := by
  intro answers c hc
  obtain ⟨r, _, hc⟩ := ends_bind hc
  cases r with
  | ok a => exact h a answers c hc
  | error cause => cases ends_done hc

theorem readCell (depth : Nat) (b : String) : Requires (Evaluation.readCell depth b) b := by
  intro answers v h
  obtain ⟨w, hw, h⟩ := ends_read h
  exact ⟨v, ends_done h ▸ hw⟩

theorem map {x : Evaluation α} (f : α → β) (h : Requires x b) : Requires (f <$> x) b := by
  rw [map_eq_pure_bind]
  exact h.bind_left

theorem mapM {f : α → Evaluation β} {l : List α} {a : α} (ha : a ∈ l) (h : Requires (f a) b) :
    Requires (l.mapM f) b := by
  induction l with
  | nil => exact absurd ha List.not_mem_nil
  | cons c l ih =>
      rw [List.mapM_cons]
      rcases List.mem_cons.mp ha with rfl | ha
      · exact h.bind_left
      · exact bind_right fun _ => (ih ha).bind_left

/-- Reading a range takes the value of every populated cell that it covers. -/
theorem readRange {depth : Nat} {first last : String} {use : Value → Except Failure (Option α)}
    (hk : b ∈ s.keys) (h : ∀ r, Rectangle.ofTexts first last = .ok r → Covers (first, last) b) :
    Requires (readRange s depth first last use) b := by
  unfold Formula.readRange
  cases hr : Rectangle.ofTexts first last with
  | error cause => exact throw cause b
  | ok r =>
  show Requires (Evaluation.ofExcept (r.populated s.keys) >>= _) b
  cases hf : r.populated s.keys with
  | error cause => exact throw cause b
  | ok found =>
  show Requires (found.mapM _ >>= _) b
  have hb := Rectangle.mem_populated_of_covers hr hf (h r hr) hk
  exact (mapM hb (readCell depth b).bind_left).bind_left

theorem readArgument {depth : Nat} {f : Aggregate} {first last : String} (hk : b ∈ s.keys)
    (h : ∀ r, Rectangle.ofTexts first last = .ok r → Covers (first, last) b) :
    Requires (readArgument s depth f first last) b := by
  unfold Formula.readArgument
  split
  · exact (readRange hk h).bind_left
  · exact (readRange hk h).bind_left

end Requires

/-- What a range argument reads is what the range covers. -/
theorem covers_of_rangeArgument? {f : Aggregate} {e : Expr} {first last b : String}
    (hr : rangeArgument? f e = some (first, last)) (hb : e.Reads b) (r : Rectangle)
    (h : Rectangle.ofTexts first last = .ok r) : Covers (first, last) b := by
  unfold rangeArgument? at hr
  split at hr
  · cases hr
    exact Expr.reads_range.mp hb
  · split at hr
    · cases hr
      rw [Expr.reads_cell.mp hb]
      exact Rectangle.covers_self h
    · cases hr
  · cases hr

/-- Whether a function is not one that leaves an argument unevaluated or catches its failure. -/
def Function.IsEager : Function → Prop
  | .conditional _ => False
  | _ => True

instance : DecidablePred Function.IsEager
  | .conditional _ => .isFalse id
  | .aggregate _ | .random _ | .math _ | .logical _ | .text _ | .date _ => .isTrue trivial

mutual

/-- **The value of an expression requires those of all populated cells that it reads**, if it calls
no conditional function. -/
theorem requires_eval {b : String} (hk : b ∈ s.keys) (depth : Nat) : ∀ e : Expr, e.Reads b →
    (∀ f ∈ e.callees, f.IsEager) → Requires (eval s depth e) b
  | .number text, hb, _ => by simp [Expr.Reads, Expr.parts] at hb
  | .bool _, hb, _ => by simp [Expr.Reads, Expr.parts] at hb
  | .text _, hb, _ => by simp [Expr.Reads, Expr.parts] at hb
  | .cell a, hb, _ => by
      rw [eval]
      split
      · exact .throw _ b
      · rw [Expr.reads_cell.mp hb]
        exact (Requires.readCell _ a).bind_left
  | .range first last, _, _ => by
      rw [eval]
      split <;> exact .throw _ b
  | .sign op e, hb, he => by
      rw [eval]
      split
      · exact .throw _ b
      · exact (requires_eval hk _ e (Expr.reads_sign.mp hb) he).bind_left
  | .percent e, hb, he => by
      rw [eval]
      split
      · exact .throw _ b
      · exact (requires_eval hk _ e (Expr.reads_percent.mp hb) he).bind_left
  | .binary op left right, hb, he => by
      rw [Expr.callees] at he
      have hl : left.Reads b → Requires (eval s (depth + operandCost) left) b := fun h =>
        requires_eval hk _ left h fun f hf => he f (List.mem_append_left _ hf)
      have hr : right.Reads b → Requires (eval s (depth + operandCost) right) b := fun h =>
        requires_eval hk _ right h fun f hf => he f (List.mem_append_right _ hf)
      rw [eval]
      split
      · exact .throw _ b
      -- both operands are evaluated, whatever the operator
      rcases Expr.reads_binary.mp hb with hb | hb
      · split
        · exact (hl hb).bind_left
        · exact (hl hb).bind_left
      · split
        · exact .bind_right fun _ => .bind_right fun _ => (hr hb).bind_left
        · exact .bind_right fun _ => (hr hb).bind_left
  | .call opener args, hb, he => by
      rw [Expr.callees] at he
      have ha : ∀ f ∈ calleesOfAll args, f.IsEager := fun f hf =>
        he f (List.mem_append_right _ hf)
      have hb := Expr.reads_call.mp hb
      rw [eval]
      split
      · exact .throw _ b
      dsimp only
      cases hn : Function.named? (nameOfOpener opener) with
      | none => exact .throw _ b
      | some f =>
          have hmem : f ∈ (Function.named? (nameOfOpener opener)).toList := by
            rw [hn]
            exact List.mem_singleton_self f
          have hf := he f (List.mem_append_left _ hmem)
          cases f with
          | conditional c => exact hf.elim
          | aggregate f => exact (requires_evalArguments hk depth f args hb ha).bind_left
          | random f => exact (requires_evalAll hk depth args hb ha).bind_left
          | math f => exact (requires_evalAll hk depth args hb ha).bind_left
          | logical f => exact (requires_evalAll hk depth args hb ha).bind_left
          | text f => exact (requires_evalAll hk depth args hb ha).bind_left
          | date f => exact (requires_evalAll hk depth args hb ha).bind_left

theorem requires_evalAll {b : String} (hk : b ∈ s.keys) (depth : Nat) : ∀ es : List Expr,
    (∃ e ∈ es, e.Reads b) → (∀ f ∈ calleesOfAll es, f.IsEager) → Requires (evalAll s depth es) b
  | [], hb, _ => by simp at hb
  | e :: es, hb, he => by
      rw [calleesOfAll] at he
      rw [evalAll]
      rcases List.exists_mem_cons_iff _ _ _ |>.mp hb with hb | hb
      · exact (requires_eval hk _ e hb fun f hf => he f (List.mem_append_left _ hf)).bind_left
      · exact .bind_right fun _ => (requires_evalAll hk depth es hb fun f hf =>
          he f (List.mem_append_right _ hf)).bind_left

theorem requires_evalArguments {b : String} (hk : b ∈ s.keys) (depth : Nat) (f : Aggregate) :
    ∀ es : List Expr, (∃ e ∈ es, e.Reads b) → (∀ g ∈ calleesOfAll es, g.IsEager) →
      Requires (evalArguments s depth f es) b
  | [], hb, _ => by simp at hb
  | e :: es, hb, he => by
      rw [calleesOfAll] at he
      have hrest : (∃ e ∈ es, e.Reads b) → Requires (evalArguments s depth f es) b := fun h =>
        requires_evalArguments hk depth f es h fun f hf => he f (List.mem_append_right _ hf)
      rw [evalArguments]
      cases hr : rangeArgument? f e with
      | some range =>
          rcases List.exists_mem_cons_iff _ _ _ |>.mp hb with hb | hb
          · exact (Requires.readArgument hk (covers_of_rangeArgument? hr hb)).bind_left
          · exact .bind_right fun _ => (hrest hb).bind_left
      | none =>
          rcases List.exists_mem_cons_iff _ _ _ |>.mp hb with hb | hb
          · exact ((requires_eval hk _ e hb fun f hf =>
              he f (List.mem_append_left _ hf)).map _).bind_left
          · exact .bind_right fun _ => (hrest hb).bind_left

end

theorem requires_outcomeAt {b text : String} {e : Expr} (hk : b ∈ s.keys) (depth : Nat)
    (hp : parse text = .ok e) (hb : e.Reads b) (he : ∀ f ∈ callees text, f.IsEager) :
    Requires (ExceptT.mk (outcomeAt s depth text)) b := by
  unfold callees at he
  unfold outcomeAt
  rw [hp] at he ⊢
  exact (requires_eval hk depth e hb he).bind_left

end Formula

namespace Sheet

variable {s : Sheet}

/-! ## What leads to a cycle -/

/-- Whether the formula of a cell refers to another cell of the sheet. -/
def RefersWithin (s : Sheet) (a b : String) : Prop :=
  s.Refers a b ∧ b ∈ s.cells.keys

/-- Whether a cycle of references can be reached from a cell. -/
def LeadsToCycle (s : Sheet) (a : String) : Prop :=
  ∃ c, ReflTransGen s.RefersWithin a c ∧ TransGen s.RefersWithin c c

theorem LeadsToCycle.next {a : String} (h : s.LeadsToCycle a) :
    ∃ b, s.RefersWithin a b ∧ s.LeadsToCycle b := by
  obtain ⟨c, hac, hc⟩ := h
  rcases ReflTransGen.cases_head hac with rfl | ⟨b, hab, hbc⟩
  · obtain ⟨b, hab, hba⟩ := TransGen.head'_iff.mp hc
    exact ⟨b, hab, a, hba, hc⟩
  · exact ⟨b, hab, c, hbc, hc⟩

/-- Whether no formula of the sheet calls a conditional function. -/
def IsEager (s : Sheet) : Prop :=
  ∀ a ∈ s.cells.keys, ∀ text ∈ s.formula? a, ∀ f ∈ callees text, f.IsEager

instance : Decidable s.IsEager :=
  inferInstanceAs (Decidable (∀ a ∈ s.cells.keys, ∀ text ∈ s.formula? a, _))

/-- A formula that has come to a value has been given one by each cell that it refers to. -/
theorem IsEager.answered (he : s.IsEager) {answers : Answering} {a b text : String} {depth : Nat}
    {v : Value} (hf : s.formula? a = some text) (hab : s.RefersWithin a b)
    (hends : (outcomeAt s.setting depth text).Ends answers (.ok v)) : ∃ u, answers b (.ok u) := by
  obtain ⟨⟨text', e, hf', hp, hb⟩, hk⟩ := hab
  obtain rfl := Option.some.inj (hf.symm.trans hf')
  exact requires_outcomeAt hk depth hp hb (he a (mem_keys_of_formula? hf) text hf) answers v hends

end Sheet

namespace Pass.Accounted

variable {s : Sheet} {p : Pass}

/-- **A cell with a value leads to no cycle.**  The cells that it refers to had their values before
it, so a way to a cycle would go back through the results without end. -/
theorem not_leadsToCycle (h : p.Accounted s []) (he : s.IsEager) : ∀ (n : Nat) {a : String}
    {v : Value} {rest : List (String × Outcome)}, rest.length < n →
      (a, .ok v) :: rest <:+ p.results → ¬ s.LeadsToCycle a := by
  intro n
  induction n with
  | zero => exact fun hn => absurd hn (Nat.not_lt_zero _)
  | succ n ih =>
      intro a v rest hn hr ha
      obtain ⟨b, hab, hb⟩ := ha.next
      have hc : ¬ p.Cyclic a := by
        intro hc
        obtain ⟨_, _, _, ho⟩ := h.error_of_cyclic hr hc
        cases ho
      obtain ⟨text, depth, hf, hends⟩ := h.ends_of_not_cyclic hr hc
      obtain ⟨u, hu⟩ := he.answered hf hab hends
      rcases hu.of_ok with ⟨hplain, _⟩ | hfound
      · -- a cell that leads to a cycle holds a formula
        obtain ⟨_, ⟨⟨text, _, hformula, _⟩, _⟩, _⟩ := hb.next
        rw [hplain] at hformula
        cases hformula
      · obtain ⟨rest', hr'⟩ := suffix_of_lookup hfound
        have hlen : rest'.length < rest.length := hr'.length_le
        exact ih (by omega) (hr'.trans ((List.suffix_cons _ _).trans hr)) hb

end Pass.Accounted

namespace Session

/-- **No value escapes a cycle in a sheet without conditional functions**: whatever has been asked
for before, each cell that leads to a cycle has failed, and shows so. -/
theorem shown_of_leadsToCycle {sheet : Sheet} (source : RandomSource) (hrows : sheet.RowsReadable)
    (he : sheet.IsEager) (calls : List Call) {address : String}
    (h : sheet.LeadsToCycle (Text.upper address)) :
    let s := (start sheet source).after calls
    (∃ cause, (StateT.run (result address).run s).1 = .ok (.error cause)) ∧
      (StateT.run (shown address).run s).1 = .ok (.text errorText) := by
  obtain ⟨p, hp, hacc, _⟩ := after_accounted (fun _ : True => hrows) calls _
    (Pass.accounted_start sheet source)
  obtain ⟨o, q, hrun, hq, _, ho⟩ := Sheet.result_accounted (Sheet.references_ok hrows) address hacc
  have hfailed : ∃ cause, o = .error cause := by
    cases o with
    | error cause => exact ⟨cause, rfl⟩
    | ok v =>
        rcases ho with ⟨hplain, _⟩ | hfound
        · obtain ⟨_, ⟨⟨text, _, hformula, _⟩, _⟩, _⟩ := h.next
          rw [hplain] at hformula
          cases hformula
        · obtain ⟨rest, hr⟩ := Pass.suffix_of_lookup hfound
          exact absurd h (hq.not_leadsToCycle he _ (Nat.lt_succ_self _) hr)
  obtain ⟨cause, rfl⟩ := hfailed
  have hresult := run_result hrun
  dsimp only
  rw [start, hp]
  refine ⟨⟨cause, congrArg Prod.fst hresult⟩, ?_⟩
  exact congrArg Prod.fst (Sheet.run_bind_ok hresult)

/-- A sheet in which the range of `A1` contains a cell of a cycle. -/
def totalOverCycle : Sheet :=
  .ofEntries [("A1", .text "=SUM(B1:B3)"), ("B1", .number (.int 3)), ("B2", .text "=C2*2"),
    ("C2", .text "=-B2")]

theorem leadsToCycle_totalOverCycle : totalOverCycle.LeadsToCycle "A1" := by
  have htotal : totalOverCycle.RefersWithin "A1" "B2" := by
    have hparse : parse "=SUM(B1:B3)" = .ok (.call "SUM(" [.range "B1" "B3"]) := by cbv
    have hcovers : Covers ("B1", "B3") "B2" :=
      ⟨⟨0, 2, 1, 1, by omega, by omega⟩, ⟨1, 1⟩, by cbv, by cbv, by decide⟩
    have hreads : (Expr.call "SUM(" [.range "B1" "B3"]).Reads "B2" :=
      Expr.reads_call.mpr ⟨_, List.mem_singleton_self _, Expr.reads_range.mpr hcovers⟩
    exact ⟨⟨_, _, by decide +kernel, hparse, hreads⟩, by decide +kernel⟩
  have hdouble : totalOverCycle.RefersWithin "B2" "C2" := by
    have hparse : parse "=C2*2" = .ok (.binary .mul (.cell "C2") (.number "2")) := by cbv
    have hreads : (Expr.binary .mul (.cell "C2") (.number "2")).Reads "C2" :=
      Expr.reads_binary.mpr (.inl (Expr.reads_cell.mpr rfl))
    exact ⟨⟨_, _, by decide +kernel, hparse, hreads⟩, by decide +kernel⟩
  have hnegate : totalOverCycle.RefersWithin "C2" "B2" := by
    have hparse : parse "=-B2" = .ok (.sign .neg (.cell "B2")) := by cbv
    exact ⟨⟨_, _, by decide +kernel, hparse, Expr.reads_sign.mpr (Expr.reads_cell.mpr rfl)⟩,
      by decide +kernel⟩
  exact ⟨"B2", .single htotal, .tail (.single hdouble) hnegate⟩

/-- A total over a cell of a cycle that has been evaluated before. -/
theorem shown_totalOverCycle :
    totalOverCycle.RowsReadable ∧ totalOverCycle.IsEager ∧
      totalOverCycle.LeadsToCycle (Text.upper "a1") ∧
      (StateT.run (shown "a1").run ((start totalOverCycle (.scripted [] [])).after
        [.shown "C2", .shownAll])).1 = .ok (.text errorText) := by
  have hrows : totalOverCycle.RowsReadable := by decide +kernel
  have heager : totalOverCycle.IsEager := by decide +kernel
  have hleads : totalOverCycle.LeadsToCycle (Text.upper "a1") := by
    rw [(by decide +kernel : Text.upper "a1" = "A1")]
    exact leadsToCycle_totalOverCycle
  exact ⟨hrows, heager, hleads, (shown_of_leadsToCycle _ hrows heager _ hleads).2⟩

end Session

end Worksheet
