import Worksheet.Proofs.Detection
import Worksheet.Proofs.Eager
import Worksheet.Proofs.Integers
import Worksheet.Proofs.Naming
import Worksheet.Proofs.Parsing

/-!
# Sheets of sums

When all formulas are sums of cells and integer literals, everything that the evaluation of a sheet
comes to can be told from where it stops.  A cell fails for a cycle if it comes back to itself by
going from each cell to its first summand without a value, and in no other case.  A cell that is on
a cycle of references only fails as well, like all cells above it; it is then the failure of a
summand that it reports.  What is left are sums that fail by themselves: their numbers are too great
or too long, or a summand is text where that is refused.
-/

namespace Worksheet

open Formula Dialogue Relation

namespace Formula

variable {α β : Type}

instance (cs : List Char) : Decidable (IsDigits cs) :=
  inferInstanceAs (Decidable (_ ∧ _))

/-- Sums of cells and integer literals. -/
inductive Expr.IsSum : Expr → Prop where
  | cell (address : String) : IsSum (.cell address)
  | number {literal : String} : IsDigits literal.toList → IsSum (.number literal)
  | add {left right : Expr} : IsSum left → IsSum right → IsSum (.binary .add left right)

instance Expr.decidableIsSum : DecidablePred Expr.IsSum
  | .cell address => .isTrue (.cell address)
  | .number literal =>
    decidable_of_iff (IsDigits literal.toList) ⟨.number, fun | .number h => h⟩
  | .binary .add left right =>
    have := decidableIsSum left
    have := decidableIsSum right
    decidable_of_iff (left.IsSum ∧ right.IsSum) ⟨fun h => .add h.1 h.2, fun | .add h h' => ⟨h, h'⟩⟩
  | .bool _ | .text _ | .range _ _ | .sign _ _ | .percent _ | .call _ _ => .isFalse nofun
  | .binary (.compare _) _ _ | .binary .concat _ _ | .binary .sub _ _ | .binary .mul _ _
  | .binary .div _ _ | .binary .pow _ _ => .isFalse nofun

/-- Whether the text of a formula is a sum. -/
def IsSumText (text : String) : Prop :=
  match parse text with
  | .ok e => e.IsSum
  | .error _ => False

instance : DecidablePred IsSumText := fun text =>
  match h : parse text with
  | .ok e => decidable_of_iff e.IsSum (by simp [IsSumText, h])
  | .error _ => .isFalse (by simp [IsSumText, h])

theorem IsSumText.parse {text : String} (h : IsSumText text) :
    ∃ e, parse text = .ok e ∧ e.IsSum := by
  unfold IsSumText at h
  cases hp : Formula.parse text with
  | error cause =>
      rw [hp] at h
      exact h.elim
  | ok e =>
      rw [hp] at h
      exact ⟨e, rfl, h⟩

/-! ## What stands in a sum -/

theorem Expr.IsSum.callees {e : Expr} (h : e.IsSum) : e.callees = [] := by
  induction h with
  | cell _ => rfl
  | number _ => rfl
  | add _ _ hl hr => rw [Expr.callees, hl, hr, List.nil_append]

/-- Whatever stands in a sum is a sum, so no range and no string does. -/
theorem Expr.IsSum.of_mem_parts {e part : Expr} (h : e.IsSum) (hp : part ∈ e.parts) :
    part.IsSum := by
  induction h with
  | cell a => exact List.mem_singleton.mp hp ▸ .cell a
  | number hd => exact List.mem_singleton.mp hp ▸ .number hd
  | add hl hr ihl ihr =>
      rcases List.mem_cons.mp hp with rfl | hp
      · exact .add hl hr
      rcases List.mem_append.mp hp with hp | hp
      · exact ihl hp
      · exact ihr hp

theorem Expr.IsSum.quotedRanges {e : Expr} (h : e.IsSum) : e.quotedRanges = [] := by
  refine List.flatMap_eq_nil_iff.mpr fun part hp => ?_
  cases h.of_mem_parts hp with
  | cell _ => rfl
  | number _ => rfl
  | add _ _ => rfl

theorem IsSumText.callees {text : String} (h : IsSumText text) : Formula.callees text = [] := by
  obtain ⟨e, hp, he⟩ := h.parse
  unfold Formula.callees
  rw [hp]
  exact he.callees

/-- A sum names no ranges. -/
theorem IsSumText.referencedRanges {text : String} (h : IsSumText text) :
    referencedRanges text = [] := by
  obtain ⟨e, hp, he⟩ := h.parse
  refine List.eq_nil_iff_forall_not_mem.mpr (forall_referencedRanges (written_of_parse hp) ?_ ?_)
  · rw [he.quotedRanges]
    exact fun _ hr => (List.not_mem_nil hr).elim
  · exact fun first last hm => nomatch he.of_mem_parts hm

/-! ## What a sum comes to -/

/-- The kinds of failure that sums have, other than cycles. -/
inductive IsSumFailure : FailureKind → Prop where
  | reference : IsSumFailure .reference
  | arithmetic : IsSumFailure .arithmetic
  | domain : IsSumFailure .domain

/-- What an operand of a sum can be. -/
inductive IsSummand : Scalar → Prop where
  | number {n : Number} : n.isFinite → IsSummand (.number n)
  | cellText (s : String) : IsSummand (.cellText s)

/-- Whether a computation gives results as said or fails as sums do. -/
def Gives (good : α → Prop) (r : Except Failure α) : Prop :=
  FailsIn IsSumFailure r ∧ ∀ a, r = .ok a → good a

theorem Gives.ok {good : α → Prop} {a : α} (h : good a) : Gives good (.ok a) :=
  ⟨failsIn_ok, fun _ ha => Except.ok.inj ha ▸ h⟩

theorem Gives.bind {good : α → Prop} {better : β → Prop} {x : Except Failure α}
    {f : α → Except Failure β} (hx : Gives good x) (hf : ∀ a, good a → Gives better (f a)) :
    Gives better (x >>= f) := by
  cases x with
  | ok a => exact hf a (hx.2 a rfl)
  | error cause => exact ⟨failsIn_error.mpr (failsIn_error.mp hx.1), nofun⟩

theorem gives_of_failsIn {kind : FailureKind} {r : Except Failure α} (h : FailsIn (· = kind) r)
    (hk : IsSumFailure kind) : Gives (fun _ => True) r :=
  ⟨h.mono fun _ he => he ▸ hk, fun _ _ => trivial⟩

theorem gives_checked (n : Number) : Gives (fun n => n.isFinite) n.checked := by
  refine ⟨n.failsIn_checked.mono fun _ he => he ▸ .arithmetic, fun m hm => ?_⟩
  unfold Number.checked at hm
  split at hm
  · next hn => exact Except.ok.inj hm ▸ hn
  · cases hm

theorem gives_numberLiteral {literal : String} (h : IsDigits literal.toList) :
    Gives (fun n => n.isFinite) (numberLiteral literal) := by
  unfold numberLiteral
  rw [Decimal.read?_of_isDigit h.1 h.2]
  exact (gives_of_failsIn (Number.failsIn_ofNumeral _) .domain).bind fun m _ => gives_checked m

theorem isFinite_of_numberOfText? {s : String} {n : Number}
    (h : numberOfText? s = .ok (some n)) : n.isFinite := by
  unfold numberOfText? at h
  split at h
  · cases h
  · next numeral _ =>
    obtain ⟨m, _, h⟩ := exists_of_bind h
    have h : (if m.isFinite then some m else none) = some n := Except.ok.inj h
    split at h
    · next hfinite => exact Option.some.inj h ▸ hfinite
    · cases h

theorem isFinite_of_number? {v : Value} {n : Number} (h : v.number? = .ok (some n)) :
    n.isFinite := by
  cases v with
  | bool b =>
      cases Option.some.inj (Except.ok.inj h)
      rfl
  | number m =>
      have h := Except.ok.inj h
      split at h
      · next hm => exact Option.some.inj h ▸ hm
      · cases h
  | text s => exact isFinite_of_numberOfText? h
  | _ => cases h

theorem gives_toScalar (v : Value) : Gives IsSummand v.toScalar := by
  refine ⟨v.failsIn_toScalar.mono fun _ he => he ▸ .domain, fun a ha => ?_⟩
  unfold Value.toScalar at ha
  split at ha
  · exact Except.ok.inj ha ▸ .number rfl
  obtain ⟨o, hn, ha⟩ := exists_of_bind ha
  cases o with
  | some n => exact Except.ok.inj ha ▸ .number (isFinite_of_number? hn)
  | none =>
      obtain ⟨s, _, ha⟩ := exists_of_bind ha
      exact Except.ok.inj ha ▸ .cellText s

theorem gives_asNumber {strict : Bool} {v : Scalar} (h : IsSummand v) :
    Gives (fun _ => True) (v.asNumber strict none) := by
  cases h with
  | @number n hn =>
      have hok : (Scalar.number n).asNumber strict none = .ok n := if_pos hn
      exact hok ▸ .ok trivial
  | cellText s =>
      cases strict with
      | true => exact ⟨failsIn_error.mpr IsSumFailure.reference, nofun⟩
      | false => exact .ok trivial

theorem gives_compute_add (m n : Number) : Gives IsSummand (compute Number.add m n) :=
  (gives_of_failsIn (Number.failsIn_combine _ _ m n) .arithmetic).bind fun k _ =>
    (gives_checked k).bind fun _ hn => .ok (.number hn)

/-- Whether an evaluation gives results as said or fails as sums do, if the failures of the cells
that it reads are like that. -/
def Yields (good : α → Prop) (x : Evaluation α) : Prop :=
  ∀ answers : Answering, (∀ a v, answers a v → FailsIn IsSumFailure v) →
    ∀ r, x.run.Ends answers r → Gives good r

namespace Yields

variable {good : α → Prop} {better : β → Prop}

theorem ofExcept {r : Except Failure α} (h : Gives good r) : Yields good (Evaluation.ofExcept r) :=
  fun _ _ _ hr => ends_done hr ▸ h

theorem bind {x : Evaluation α} {f : α → Evaluation β} (hx : Yields good x)
    (hf : ∀ a, good a → Yields better (f a)) : Yields better (x >>= f) := by
  intro answers ha r hr
  obtain ⟨r', hr', hr⟩ := ends_bind hr
  obtain ⟨hfails, hgood⟩ := hx answers ha r' hr'
  cases r' with
  | ok a => exact hf a (hgood a rfl) answers ha r hr
  | error cause =>
      rw [← ends_done hr]
      exact ⟨failsIn_error.mpr (failsIn_error.mp hfails), nofun⟩

theorem readCell (depth : Nat) (address : String) :
    Yields (fun _ => True) (Evaluation.readCell depth address) := by
  intro answers ha r hr
  obtain ⟨v, hv, hr⟩ := ends_read hr
  exact ends_done hr ▸ ⟨ha address v hv, fun _ _ => trivial⟩

/-- **The value of a sum is a summand of others.** -/
theorem eval {s : Setting} (hs : s.limit = none) {e : Expr} (h : e.IsSum) :
    ∀ depth, Yields IsSummand (eval s depth e) := by
  have hexceeds := Setting.exceeds_of_unlimited hs
  induction h with
  | cell a =>
      intro depth
      rw [Formula.eval, hexceeds]
      exact (readCell _ a).bind fun v _ => ofExcept (gives_toScalar v)
  | number hd =>
      intro depth
      rw [Formula.eval, hexceeds]
      exact (ofExcept (gives_numberLiteral hd)).bind fun n hn => ofExcept (.ok (.number hn))
  | add _ _ hl hr =>
      intro depth
      rw [Formula.eval, hexceeds]
      exact (hl _).bind fun l hl => (ofExcept (gives_asNumber hl)).bind fun m _ =>
        (hr _).bind fun r hr => (ofExcept (gives_asNumber hr)).bind fun n _ =>
        ofExcept (gives_compute_add m n)

end Yields

/-- A sum fails as sums do if the failures of the cells that it reads are like that. -/
theorem IsSumText.failsIn {s : Setting} (hs : s.limit = none) {text : String} (h : IsSumText text)
    {answers : Answering} (ha : ∀ a v, answers a v → FailsIn IsSumFailure v) {depth : Nat}
    {o : Outcome} (ho : (outcomeAt s depth text).Ends answers o) : FailsIn IsSumFailure o := by
  obtain ⟨e, hp, he⟩ := h.parse
  have hvalue : Yields (fun _ => True) (eval s depth e >>= fun v => pure v.toValue) :=
    (Yields.eval hs he depth).bind fun v _ => .ofExcept (.ok trivial)
  unfold outcomeAt at ho
  rw [hp] at ho
  exact (hvalue answers ha o ho).1

end Formula

namespace Sheet

variable {s : Sheet}

/-- Whether all formulas of the sheet are sums. -/
def IsSums (s : Sheet) : Prop :=
  ∀ a ∈ s.cells.keys, ∀ text ∈ s.formula? a, IsSumText text

instance : Decidable s.IsSums :=
  inferInstanceAs (Decidable (∀ a ∈ s.cells.keys, ∀ text ∈ s.formula? a, _))

namespace IsSums

theorem isSumText (h : s.IsSums) {a text : String} (hf : s.formula? a = some text) :
    IsSumText text :=
  h a (mem_keys_of_formula? hf) text hf

theorem isEager (h : s.IsSums) : s.IsEager := by
  intro a ha text hf f hm
  rw [(h a ha text hf).callees] at hm
  exact (List.not_mem_nil hm).elim

theorem drawless (h : s.IsSums) (hs : s.limit = none) : s.Drawless :=
  fun _ text hf => respected_drawless.outcomeAt hs 0 0 text (by simp [(h.isSumText hf).callees])

theorem passesFailures (h : s.IsSums) (hs : s.limit = none) : s.PassesFailures :=
  fun _ text hf =>
    respected_passesFailures.outcomeAt hs 0 0 text (by simp [(h.isSumText hf).callees])

/-- The cells that a sum names are found without reading any rows. -/
theorem references_ok (h : s.IsSums) (a : String) : ∃ l, s.references a = .ok l := by
  unfold references
  cases hf : s.formula? a with
  | none => exact ⟨[], rfl⟩
  | some text =>
      dsimp only
      rw [(h.isSumText hf).referencedRanges]
      exact ⟨_, rfl⟩

end IsSums

/-! ## Cycles of references -/

theorem asks_of_stopsAt {d : Dialogue Outcome} {b : String} (h : s.StopsAt d b) :
    d.Asks anyAnswer b := by
  induction h with
  | here _ => exact ⟨_, _, .refl⟩
  | later _ _ ih => exact ih.head (.read trivial)

/-- A formula stops at a cell that it refers to. -/
theorem Stops.refers {a b : String} (h : s.Stops a b) : s.Refers a b := by
  obtain ⟨text, hf, hstop⟩ := h
  exact Inquires.refers ⟨text, 0, hf, asks_of_stopsAt hstop⟩

/-- A cell that comes back to itself by references leads to a cycle. -/
theorem leadsToCycle_of_transGen {a : String} (h : TransGen s.Refers a a) : s.LeadsToCycle a := by
  have hformula : ∀ {x y}, s.Refers x y → x ∈ s.cells.keys := by
    rintro x y ⟨_, _, hf, _⟩
    exact mem_keys_of_formula? hf
  have hkey : a ∈ s.cells.keys := by
    obtain ⟨_, hab, _⟩ := TransGen.head'_iff.mp h
    exact hformula hab
  have hwithin : ∀ {x}, TransGen s.Refers a x → x ∈ s.cells.keys →
      TransGen s.RefersWithin a x := by
    intro x hx
    induction hx with
    | single hax => exact fun hk => .single ⟨hax, hk⟩
    | tail _ hxy ih => exact fun hk => (ih (hformula hxy)).tail ⟨hxy, hk⟩
  exact ⟨a, .refl, hwithin h hkey⟩

end Sheet

/-! ## What is found -/

/-- Whether a cell has failed with a certain kind. -/
def Pass.FailedFor (p : Pass) (kind : FailureKind) (a : String) : Prop :=
  ∃ cause, p.find? a = some (.error cause) ∧ cause.kind = kind

theorem Pass.FailedFor.unique {p : Pass} {kind kind' : FailureKind} {a : String}
    (h : p.FailedFor kind a) (h' : p.FailedFor kind' a) : kind = kind' := by
  obtain ⟨cause, ho, rfl⟩ := h
  obtain ⟨cause', ho', rfl⟩ := h'
  cases ho.symm.trans ho'
  rfl

/-- What a pass finds of the cycles in a sheet of sums.  Which of the cells on cycles of references
fail for a cycle can be told as long as nesting is not bounded. -/
structure Sheet.FindsCycles (s : Sheet) (p : Pass) : Prop where
  /-- The cells that have failed for a cycle are those on recorded ones. -/
  recorded : ∀ a, p.FailedFor .circular a ↔ p.Cyclic a
  /-- Those are on cycles of references. -/
  refers : ∀ a, p.Cyclic a → TransGen s.Refers a a
  /-- All cells on cycles of references have failed. -/
  failed : ∀ a o, p.find? a = some o → TransGen s.Refers a a → ∃ cause, o = .error cause
  /-- The recorded cycles are those of cells each of which stops at the next. -/
  stops : s.limit = none → ∀ a o, p.find? a = some o → (p.Cyclic a ↔ TransGen s.Stops a a)
  /-- Other cells have failed because a summand has, or because the sum itself fails. -/
  others : s.limit = none → ∀ a cause, p.find? a = some (.error cause) → ¬ p.Cyclic a →
    cause.kind = .reference ∨
      (¬ ∃ b, s.Stops a b) ∧ (cause.kind = .arithmetic ∨ cause.kind = .domain)

namespace Pass.Accounted

variable {s : Sheet} {p : Pass}

theorem findsCycles (h : p.Accounted s []) (hsums : s.IsSums) : s.FindsCycles p where
  recorded a := h.circular_iff
  refers := by
    rintro a ⟨path, hp, ha⟩
    exact (h.isRing_refers hp).transGen ha ha
  failed := by
    intro a o ho hcycle
    cases o with
    | error cause => exact ⟨cause, rfl⟩
    | ok v =>
        obtain ⟨rest, hr⟩ := suffix_of_lookup ho
        exact absurd (Sheet.leadsToCycle_of_transGen hcycle)
          (h.not_leadsToCycle hsums.isEager _ (Nat.lt_succ_self _) hr)
  stops hs a o ho := (h.sound hs).cyclic_iff_transGen_stops (hsums.drawless hs)
    (hsums.passesFailures hs) ho
  others := by
    intro hs a cause ho hc
    obtain ⟨rest, hr⟩ := suffix_of_lookup ho
    by_cases hstops : ∃ b, s.Stops a b
    · obtain ⟨b, hb⟩ := hstops
      obtain ⟨cause', _, he⟩ := (h.sound hs).lookup_of_stops (hsums.drawless hs)
        (hsums.passesFailures hs) hr hc hb
      exact .inl (Except.error.inj he ▸ rfl)
    · obtain ⟨text, depth, hf, hends⟩ := h.ends_of_not_cyclic hr hc
      have hkind : IsSumFailure cause.kind := by
        refine (hsums.isSumText hf).failsIn hs (fun b v hv => ?_) hends cause rfl
        cases hv with
        | plain _ => exact failsIn_ok
        | @found _ o _ =>
            cases o with
            | ok v => exact failsIn_ok
            | error cause => exact failsIn_error.mpr .reference
        | cyclic hpath _ => exact absurd hpath List.not_mem_nil
        | outOfReach hlimit _ => exact absurd hs hlimit
      generalize cause.kind = kind at hkind ⊢
      cases hkind with
      | reference => exact .inl rfl
      | arithmetic => exact .inr ⟨hstops, .inl rfl⟩
      | domain => exact .inr ⟨hstops, .inr rfl⟩

end Pass.Accounted

namespace Session

variable {sheet : Sheet}

/-- A formula cell that has been asked for has an outcome. -/
theorem find_after (href : ∀ a, ∃ l, sheet.references a = .ok l) {calls : List Call}
    {name text : String} (hcall : .result name ∈ calls ∨ .shown name ∈ calls)
    (hf : sheet.formula? (Text.upper name) = some text) {p : Pass} (hp : p.Accounted sheet []) :
    ∃ o, (after ⟨sheet, p⟩ calls).pass.find? (Text.upper name) = some o := by
  obtain ⟨call, hmem, hname⟩ : ∃ call ∈ calls, call = .result name ∨ call = .shown name := by
    rcases hcall with h | h
    · exact ⟨_, h, .inl rfl⟩
    · exact ⟨_, h, .inr rfl⟩
  obtain ⟨before, rest, rfl⟩ := List.append_of_mem hmem
  -- the call comes after others, and leaves the outcome to those that come after it
  obtain ⟨q, hq, haccounted, _⟩ :=
    after_accounted (False.elim (C := sheet.RowsReadable)) before p hp
  obtain ⟨o, r, hrun, hr, _, ho⟩ := Sheet.result_accounted href name haccounted
  have hstep : (StateT.run call.run.run ⟨sheet, q⟩).2 = ⟨sheet, r⟩ := by
    have hresult := run_result hrun
    rcases hname with rfl | rfl
    · exact congrArg Prod.snd (Sheet.run_bind_ok hresult)
    · have hshown : StateT.run (shown name).run ⟨sheet, q⟩ = (.ok o.shown, ⟨sheet, r⟩) :=
        Sheet.run_bind_ok hresult
      exact congrArg Prod.snd (Sheet.run_bind_ok hshown)
  obtain ⟨q', hq', haccounted', hgrows⟩ :=
    after_accounted (False.elim (C := sheet.RowsReadable)) rest r hr
  have hafter : after ⟨sheet, p⟩ (before ++ call :: rest) = ⟨sheet, q'⟩ := by
    unfold after at hq hq' ⊢
    rw [List.foldl_append, hq, List.foldl_cons, hstep, hq']
  rw [hafter]
  rcases ho with ⟨hplain, _⟩ | ho
  · rw [hf] at hplain
    cases hplain
  · exact ⟨o, Pass.lookup_of_suffix haccounted'.nodup_results hgrows.results ho⟩

/-- **In a sheet of sums all cycles along which evaluation stops are found, and no others**,
whichever cells have been asked for and in whichever order: each of the cells asked for has an
outcome, and it can be told from the sheet why those fail that do. -/
theorem findsCycles_of_isSums (source : RandomSource) (hsums : sheet.IsSums) (calls : List Call) :
    let p := ((start sheet source).after calls).pass
    (∀ name text, .result name ∈ calls ∨ .shown name ∈ calls →
        sheet.formula? (Text.upper name) = some text → ∃ o, p.find? (Text.upper name) = some o) ∧
      sheet.FindsCycles p := by
  have hstart := Pass.accounted_start sheet source
  refine ⟨fun name text hcall hf => find_after hsums.references_ok hcall hf hstart, ?_⟩
  obtain ⟨p, hp, haccounted, _⟩ :=
    after_accounted (False.elim (C := sheet.RowsReadable)) calls _ hstart
  rw [start, hp]
  exact haccounted.findsCycles hsums

/-- Two cycles that have `A1` in common, which stops at `B1`. -/
def sharedCell : Sheet :=
  .ofEntries [("A1", .text "=B1+C1"), ("B1", .text "=A1"), ("C1", .text "=A1")]

/-- What is found of the two cycles when a cell of the second one comes first. -/
theorem findsCycles_sharedCell :
    let p := ((start sharedCell (.scripted [] [])).after [.result "c1", .shownAll]).pass
    sharedCell.IsSums ∧ (∃ o, p.find? "C1" = some o) ∧ sharedCell.FindsCycles p := by
  have hsums : sharedCell.IsSums := by decide +kernel
  obtain ⟨hfind, hfinds⟩ :=
    findsCycles_of_isSums (.scripted [] []) hsums [.result "c1", .shownAll]
  have hname : Text.upper "c1" = "C1" := by decide +kernel
  rw [← hname]
  exact ⟨hsums, hfind "c1" "=A1" (.inl List.mem_cons_self) (by decide +kernel), hfinds⟩

end Session

/-! ## Failures of other kinds -/

namespace Sheet

variable {s : Sheet} {order : List String} {a : String} {kind : FailureKind}

/-- The pass in which some cells have been evaluated in order. -/
def passInOrder (s : Sheet) (source : RandomSource) (order : List String) : Pass :=
  ((Session.start s source).after (order.map .shown)).pass

/-- Whether, in whichever order all cells are evaluated, those that fail for a cycle are all that
are on a cycle of references, all of them are on recorded cycles, and the other failures are those
of references. -/
def FindsAllCycles (s : Sheet) : Prop :=
  ∀ source order, (∀ a ∈ s.cells.keys, a ∈ order) →
    let p := s.passInOrder source order
    (∀ a, p.FailedFor .circular a ↔ TransGen s.Refers a a) ∧
      (∀ a, TransGen s.Refers a a → p.Cyclic a) ∧
      ∀ a kind, p.FailedFor kind a → ¬ TransGen s.Refers a a → kind = .reference

/-- With which kind of failure a cell fails, if it does, when some cells are evaluated in order. -/
def kindInOrder (s : Sheet) (order : List String) (a : String) : Option FailureKind :=
  match (s.passInOrder (.scripted [] []) order).find? a with
  | some (.error cause) => some cause.kind
  | _ => none

theorem failedFor_of_kindInOrder (h : s.kindInOrder order a = some kind) :
    (s.passInOrder (.scripted [] []) order).FailedFor kind a := by
  unfold kindInOrder at h
  split at h
  · next cause ho => exact ⟨cause, ho, Option.some.inj h⟩
  · cases h

/-- Where all cycles are found, each failure is that of a cycle, or it is that of a reference and
the cell is on no cycle. -/
theorem FindsAllCycles.kind_eq (h : s.FindsAllCycles) (hall : ∀ a ∈ s.cells.keys, a ∈ order)
    (hk : s.kindInOrder order a = some kind) :
    kind = .circular ∨ kind = .reference ∧ ¬ TransGen s.Refers a a := by
  obtain ⟨hcircular, _, hothers⟩ := h (.scripted [] []) order hall
  have hfailed := failedFor_of_kindInOrder hk
  by_cases hcycle : TransGen s.Refers a a
  · exact .inl (hfailed.unique ((hcircular a).mpr hcycle))
  · exact .inr ⟨hothers a kind hfailed hcycle, hcycle⟩

/-- A sum that is beyond the binary64 numbers. -/
def greatSum : Sheet :=
  .ofEntries [("A1", .number (.float (.ofDecimal false 1 308))), ("B1", .text "=A1+A1")]

/-- A cycle that nests more deeply than evaluation may. -/
def deepCycle : Sheet :=
  { ofEntries [("A1", .text "=B1"), ("B1", .text "=C1"), ("C1", .text "=A1")] with
    limit := some 17 }

/-- **A cell on a cycle with a cell that stops elsewhere fails for a reference, a sum can fail by
itself, and a long cycle can end in a failure before it is found.** -/
theorem not_findsAllCycles :
    (Session.sharedCell.IsSums ∧ TransGen Session.sharedCell.Refers "C1" "C1" ∧
        Session.sharedCell.kindInOrder ["A1", "B1", "C1"] "C1" = some .reference ∧
        ¬ Session.sharedCell.FindsAllCycles) ∧
      (greatSum.IsSums ∧ greatSum.kindInOrder ["A1", "B1"] "B1" = some .arithmetic ∧
        ¬ greatSum.FindsAllCycles) ∧
      deepCycle.IsSums ∧ deepCycle.kindInOrder ["A1", "B1", "C1"] "C1" = some .parse ∧
        ¬ deepCycle.FindsAllCycles := by
  have hcycle : TransGen Session.sharedCell.Refers "C1" "C1" := by
    have hsum : parse "=B1+C1" = .ok (.binary .add (.cell "B1") (.cell "C1")) := by cbv
    have hcell : parse "=A1" = .ok (.cell "A1") := by cbv
    refine .tail (.single ⟨"=A1", _, by decide +kernel, hcell, Expr.reads_cell.mpr rfl⟩) ?_
    refine ⟨"=B1+C1", _, by decide +kernel, hsum, Expr.reads_binary.mpr (.inr ?_)⟩
    exact Expr.reads_cell.mpr rfl
  have hshared : Session.sharedCell.kindInOrder ["A1", "B1", "C1"] "C1" = some .reference := by
    decide +kernel
  have hgreat : greatSum.kindInOrder ["A1", "B1"] "B1" = some .arithmetic := by decide +kernel
  have hdeep : deepCycle.kindInOrder ["A1", "B1", "C1"] "C1" = some .parse := by decide +kernel
  refine ⟨⟨by decide +kernel, hcycle, hshared, fun h => ?_⟩,
    ⟨by decide +kernel, hgreat, fun h => ?_⟩, by decide +kernel, hdeep, fun h => ?_⟩
  · rcases h.kind_eq (by decide +kernel) hshared with he | ⟨_, hnot⟩
    · cases he
    · exact hnot hcycle
  · rcases h.kind_eq (by decide +kernel) hgreat with he | ⟨he, _⟩
    · cases he
    · cases he
  · rcases h.kind_eq (by decide +kernel) hdeep with he | ⟨he, _⟩
    · cases he
    · cases he

end Sheet

end Worksheet
