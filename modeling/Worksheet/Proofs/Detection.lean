import Worksheet.Proofs.Order

/-!
# Which cycles are found

Where formulas catch no failures, evaluating a formula stops at the first cell that has no value.
So each cell without a value stops at one other cell at most, and the recorded cycles are those of
cells each of which stops at the next one.  All of these are found, in whichever order cells are
evaluated: none of their cells can have an outcome before the next one has, unless it is on a
recorded cycle, and recorded cycles go where evaluation stops.

A cycle of references can have cells that stop elsewhere.  They fail, but not for a cycle.
-/

namespace Worksheet

open Formula Dialogue Relation

namespace Sheet

/-- Whether no formula of the sheet catches failures. -/
def PassesFailures (s : Sheet) : Prop :=
  ∀ a text, s.formula? a = some text → (s.dialogue text).PassesFailures

/-- Whether a cell means a value. -/
def HasValue (s : Sheet) (a : String) : Prop :=
  ∃ v, s.Means a (.ok v)

/-- At which cell a dialogue stops: the first one that it asks for and that has no value, when the
others answer with theirs. -/
inductive StopsAt (s : Sheet) : Dialogue Outcome → String → Prop where
  | here {b : String} {depth : Nat} {next : Except Failure Value → Dialogue Outcome} :
      ¬ s.HasValue b → StopsAt s (.read b depth next) b
  | later {b c : String} {depth : Nat} {next : Except Failure Value → Dialogue Outcome}
      {v : Value} :
      s.Means b (.ok v) → StopsAt s (next (.ok v)) c → StopsAt s (.read b depth next) c

/-- Whether the formula of a cell stops at another cell. -/
def Stops (s : Sheet) (a b : String) : Prop :=
  ∃ text, s.formula? a = some text ∧ s.StopsAt (s.dialogue text) b

/-- A dialogue that comes to a value, with answers that are what cells mean, comes to it in the
sense of meanings as well. -/
theorem comesTo_of_ends {s : Sheet} {P : Answering} (hP : ∀ b u, P b (.ok u) → s.Means b (.ok u))
    {d : Dialogue Outcome} (hd : d.Drawless) (hpass : d.PassesFailures) {v : Value}
    (h : d.Ends P (.ok v)) : s.ComesTo d (.ok v) := by
  induction d with
  | done o =>
      rw [ends_done h]
      exact .done
  | read b depth next ih =>
      obtain ⟨w, hw, h⟩ := ends_read h
      cases w with
      | ok u => exact .read (hP b u hw) (ih _ (hd _) (hpass.2 _) h)
      | error cause =>
          rw [hpass.1 cause] at h
          cases ends_done h
  | drawFraction next => exact hd.elim
  | drawInteger low high next => exact hd.elim

end Sheet

namespace Pass.Sound

variable {s : Sheet} {p : Pass}

/-! ## What a pass says of values -/

/-- What a cell that means something answers. -/
theorem eq_of_answers (h : p.Sound s []) {a : String} {o : Outcome} {w : Except Failure Value}
    (hm : s.Means a o) (hw : p.Answers s a w) : w = readOutcome a o :=
  Pass.eq_of_holds h.unlimited (hm.holds h).1 (hm.holds h).2 hw

/-- **A cell that has come to a value means it**, where no failures are caught. -/
theorem means_of_ok (h : p.Sound s []) (hd : s.Drawless) (hpass : s.PassesFailures) : ∀ (n : Nat)
    {a : String} {v : Value} {rest : List (String × Outcome)}, rest.length < n →
      (a, .ok v) :: rest <:+ p.results → s.Means a (.ok v) := by
  intro n
  induction n with
  | zero => exact fun hn => absurd hn (Nat.not_lt_zero _)
  | succ n ih =>
      intro a v rest hn hr
      obtain ⟨text, hf, hends⟩ := h.ends_of_ok hr
      refine .formula hf (Sheet.comesTo_of_ends (fun b u hb => ?_) (hd a text hf) (hpass a text hf)
        hends)
      rcases hb.of_ok with ⟨hplain, rfl⟩ | hfound
      · exact .plain hplain
      · obtain ⟨rest', hr'⟩ := suffix_of_lookup hfound
        have hlen : rest'.length < rest.length := hr'.length_le
        exact ih (by omega) (hr'.trans ((List.suffix_cons _ _).trans hr))

/-- A cell that answers with a value means it. -/
theorem means_of_answers (h : p.Sound s []) (hd : s.Drawless) (hpass : s.PassesFailures)
    {a : String} {u : Value} (hw : p.Answers s a (.ok u)) : s.Means a (.ok u) := by
  rcases hw.of_ok with ⟨hplain, rfl⟩ | hfound
  · exact .plain hplain
  · obtain ⟨rest, hr⟩ := suffix_of_lookup hfound
    exact h.means_of_ok hd hpass _ (Nat.lt_succ_self _) hr

/-- A cell without a value answers with a failure. -/
theorem error_of_answers (h : p.Sound s []) (hd : s.Drawless) (hpass : s.PassesFailures)
    {a : String} {w : Except Failure Value} (hn : ¬ s.HasValue a) (hw : p.Answers s a w) :
    ∃ cause, w = .error cause := by
  cases w with
  | error cause => exact ⟨cause, rfl⟩
  | ok u => exact absurd ⟨u, h.means_of_answers hd hpass hw⟩ hn

/-! ## Where evaluation stops -/

/-- A dialogue that stops at a cell asks for no other cells but such as have values. -/
theorem asks_of_stopsAt (h : p.Sound s []) (hd : s.Drawless) (hpass : s.PassesFailures)
    {d : Dialogue Outcome} {c : String} (hstop : s.StopsAt d c) (hdpass : d.PassesFailures)
    {b : String} (hb : d.Asks (p.Answers s) b) : b = c ∨ s.HasValue b := by
  induction hstop with
  | here hn =>
      rcases asks_read hb with rfl | ⟨w, hw, hb⟩
      · exact .inl rfl
      · obtain ⟨cause, rfl⟩ := h.error_of_answers hd hpass hn hw
        rw [hdpass.1 cause] at hb
        exact absurd hb not_asks_done
  | later hm _ ih =>
      rcases asks_read hb with rfl | ⟨w, hw, hb⟩
      · exact .inr ⟨_, hm⟩
      · rw [h.eq_of_answers hm hw] at hb
        exact ih (hdpass.2 _) hb

/-- A dialogue that asks for a cell without a value stops there. -/
theorem stopsAt_of_asks (h : p.Sound s []) (hd : s.Drawless) (hpass : s.PassesFailures)
    {b : String} (hb : ¬ s.HasValue b) {d : Dialogue Outcome} (hdraw : d.Drawless)
    (hdpass : d.PassesFailures) (hasks : d.Asks (p.Answers s) b) : s.StopsAt d b := by
  induction d with
  | done o => exact absurd hasks not_asks_done
  | read c depth next ih =>
      rcases asks_read hasks with rfl | ⟨w, hw, hasks⟩
      · exact .here hb
      · cases w with
        | ok u => exact .later (h.means_of_answers hd hpass hw) (ih _ (hdraw _) (hdpass.2 _) hasks)
        | error cause =>
            rw [hdpass.1 cause] at hasks
            exact absurd hasks not_asks_done
  | drawFraction next => exact hdraw.elim
  | drawInteger low high next => exact hdraw.elim

/-- A dialogue that stops at a cell has been given a failure by it, and ends in this failure. -/
theorem error_of_stopsAt (h : p.Sound s []) (hd : s.Drawless) (hpass : s.PassesFailures)
    {P : Answering} (hP : ∀ b w, P b w → p.Answers s b w) {d : Dialogue Outcome} {c : String}
    {o : Outcome} (hstop : s.StopsAt d c) (hdpass : d.PassesFailures) (ho : d.Ends P o) :
    ∃ cause, P c (.error cause) ∧ o = .error cause := by
  induction hstop with
  | here hn =>
      obtain ⟨w, hw, ho⟩ := ends_read ho
      obtain ⟨cause, rfl⟩ := h.error_of_answers hd hpass hn (hP _ _ hw)
      rw [hdpass.1 cause] at ho
      exact ⟨cause, hw, (ends_done ho).symm⟩
  | later hm _ ih =>
      obtain ⟨w, hw, ho⟩ := ends_read ho
      rw [h.eq_of_answers hm (hP _ _ hw)] at ho
      exact ih (hdpass.2 _) ho

variable {a b : String} {o : Outcome} {rest : List (String × Outcome)}

/-- A cell on no recorded cycle has the failure of the cell at which it stops, which was evaluated
before it. -/
theorem lookup_of_stops (h : p.Sound s []) (hd : s.Drawless) (hpass : s.PassesFailures)
    (hr : (a, o) :: rest <:+ p.results) (hc : ¬ p.Cyclic a) (hab : s.Stops a b) :
    ∃ cause, rest.lookup b = some (.error cause) ∧ o = .error (.failedCell b cause) := by
  obtain ⟨text, hf, hstop⟩ := hab
  obtain ⟨text', hf', hends⟩ := h.ends_of_not_cyclic hr hc
  obtain rfl := Option.some.inj (hf.symm.trans hf')
  have hbefore : ∀ b w, s.Answers rest [] b w → p.Answers s b w := fun b w =>
    answers_mono h.nodup_results ((List.suffix_cons _ _).trans hr) (List.nil_subset _)
  obtain ⟨cause, hb, rfl⟩ := h.error_of_stopsAt hd hpass hbefore hstop (hpass a text hf) hends
  generalize hw : (Except.error cause : Except Failure Value) = w at hb
  cases hb with
  | plain _ => cases hw
  | @found _ o ho =>
      cases o with
      | ok u => cases hw
      | error cause' =>
          obtain rfl := Except.error.inj hw
          exact ⟨cause', ho, rfl⟩
  | cyclic hpath _ => exact absurd hpath List.not_mem_nil
  | outOfReach hlimit _ => exact absurd h.unlimited hlimit

/-- A recorded cycle goes where its cells stop. -/
theorem cyclic_of_stops (h : p.Sound s []) (hd : s.Drawless) (hpass : s.PassesFailures)
    (hc : p.Cyclic a) (hab : s.Stops a b) : p.Cyclic b := by
  obtain ⟨path, hpath, ha⟩ := hc
  obtain ⟨b', hb', text, hf, hasks⟩ := h.reads_of_cyclic hpath ha
  obtain ⟨text', hf', hstop⟩ := hab
  obtain rfl := Option.some.inj (hf.symm.trans hf')
  rcases h.asks_of_stopsAt hd hpass hstop (hpass a text hf) hasks with rfl | ⟨v, hv⟩
  · exact ⟨path, hpath, hb'⟩
  · exact absurd ⟨path, hpath, hb'⟩ (hv.holds h).1

/-- A recorded cycle is a ring of cells each of which stops at the next. -/
theorem isRing_stops (h : p.Sound s []) (hd : s.Drawless) (hpass : s.PassesFailures)
    {path : List String} (hp : path ∈ p.cycles) : IsRing s.Stops path := by
  have hring := h.rings path hp
  refine ⟨hring.chain.imp_of_mem_imp fun a b _ hb hab => ?_, hring.closed⟩
  obtain ⟨text, hf, hasks⟩ := hab
  have hnone : ¬ s.HasValue b := fun ⟨v, hv⟩ => (hv.holds h).1 ⟨path, hp, hb⟩
  exact ⟨text, hf, h.stopsAt_of_asks hd hpass hnone (hd a text hf) (hpass a text hf) hasks⟩

/-- **A cycle of cells each of which stops at the next is found** when one of its cells has been
evaluated. -/
theorem cyclic_of_transGen_stops (h : p.Sound s []) (hd : s.Drawless) (hpass : s.PassesFailures)
    (hcycle : TransGen s.Stops a a) (ho : p.find? a = some o) : p.Cyclic a := by
  by_contra hc
  obtain ⟨rest, hr⟩ := suffix_of_lookup ho
  have hnot : ∀ {x}, ReflTransGen s.Stops x a → ¬ p.Cyclic x := by
    intro x hx hcyclic
    induction hx using ReflTransGen.head_induction_on with
    | refl => exact hc hcyclic
    | head hxy _ ih => exact ih (h.cyclic_of_stops hd hpass hcyclic hxy)
  -- so each cell on the way around has been evaluated before the one that stops at it
  have hbefore : ∀ {x}, TransGen s.Stops a x → ReflTransGen s.Stops x a →
      ∃ cause, ∃ rest', (x, .error cause) :: rest' <:+ rest := by
    intro x hx
    induction hx with
    | single hab =>
        intro _
        obtain ⟨cause, hlookup, _⟩ := h.lookup_of_stops hd hpass hr hc hab
        exact ⟨cause, suffix_of_lookup hlookup⟩
    | tail hax hxy ih =>
        intro hya
        obtain ⟨_, rest', hr'⟩ := ih (.head hxy hya)
        have hsuffix := hr'.trans ((List.suffix_cons _ _).trans hr)
        obtain ⟨cause, hlookup, _⟩ := h.lookup_of_stops hd hpass hsuffix (hnot (.head hxy hya)) hxy
        obtain ⟨rest'', hr''⟩ := suffix_of_lookup hlookup
        exact ⟨cause, rest'', hr''.trans ((List.suffix_cons _ _).trans hr')⟩
  obtain ⟨cause, rest', hr'⟩ := hbefore hcycle .refl
  have hnodup := (hr.map (·.1)).sublist.nodup h.nodup_results
  refine (List.nodup_cons.mp hnodup).1 ?_
  exact List.mem_map.mpr ⟨_, hr'.subset List.mem_cons_self, rfl⟩

/-- **The cells on recorded cycles are those that come back to themselves by going where evaluation
stops.** -/
theorem cyclic_iff_transGen_stops (h : p.Sound s []) (hd : s.Drawless) (hpass : s.PassesFailures)
    (ho : p.find? a = some o) : p.Cyclic a ↔ TransGen s.Stops a a := by
  constructor
  · rintro ⟨path, hp, ha⟩
    exact (h.isRing_stops hd hpass hp).transGen ha ha
  · exact fun hcycle => h.cyclic_of_transGen_stops hd hpass hcycle ho

end Pass.Sound

end Worksheet
