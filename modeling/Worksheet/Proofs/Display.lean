import Worksheet.Proofs.Finiteness
import Worksheet.Proofs.Session
import Worksheet.Proofs.ShortIntegers

/-!
# Which values are displayed

Whatever a formula comes to can be shown, but for one thing: an integer with more digits than are
written out.  Such an integer is a value and no failure, so what is done with failures is not done
with it, and who wants its text gets none.

It takes an operation that can come to a longer integer than its operands: a sum, a difference, a
product, a power or a multiple.
-/

namespace Worksheet

namespace Formula

/-! ## What is known of values -/

/-- What is known of the value of a formula among plain cells: it comes from the expression, unless
the text is no formula and its own value. -/
theorem Watch.Keeps.evaluate {w : Watch} {strict : Bool} {reads : Expr → Prop}
    {allowed : Function → Prop} (h : w.Keeps strict strict reads allowed)
    (hstops : ∀ cause, ¬ w.stops cause) {cells : Cells} (hcells : ∀ a, w.answers a (.ok (cells.get a)))
    {source : RandomSource} (hsource : ∀ n, w.fractions (source.fraction n)) (clock : Moment)
    (limit : Option Nat) {text : String} (hp : ∀ e, parse text = .ok e → ∀ p ∈ e.parts, reads p)
    (ht : ∀ f ∈ callees text, allowed f) {v : Value}
    (hv : ((evaluate strict clock limit cells (.text text)).run source).1 = .ok v) :
    v = .text text ∨ ∃ e x, w.value e x ∧ x.toValue = v := by
  unfold Formula.evaluate at hv
  cases hf : (Value.text text).formula? with
  | none =>
      rw [hf] at hv
      exact .inl (Except.ok.inj hv).symm
  | some text' =>
      obtain rfl : text = text' := (formula?_text_iff.mp hf).1
      rw [hf] at hv
      have hself := h.outcomeAt (s := ⟨strict, clock, limit, cells.keys⟩) 0 text hp ht
      -- what is said of the source holds of the fractions that are left as well
      have hrun := hself.run (fun a _ => return .ok (cells.get a)) RandomSource.drawFraction
        RandomSource.drawInteger (fun p => ∀ n, w.fractions (p.fraction n))
        (fun a _ _ hp => ⟨hcells a, hp⟩) (fun p hp => ⟨hp p.fractionsDrawn, hp⟩)
        (fun _ _ _ hp => hp) source hsource
      rcases hrun with ⟨cause, -, hstop⟩ | ⟨-, hvalue⟩
      · exact absurd hstop (hstops cause)
      · obtain ⟨e, x, -, hx, hxv⟩ := hvalue v hv
        exact .inr ⟨e, x, hx, hxv⟩

/-- Cells with numbers of the format, and a random source with finite fractions. -/
structure InFormat (cells : Cells) (source : RandomSource) : Prop where
  cells : ∀ a, (cells.get a).Representable
  fractions : ∀ n, (Number.float (source.fraction n)).Proper

/-- The value of an expression is displayed unless it is too long an integer. -/
theorem display_toValue {e : Expr} {x : Scalar} (hx : finiteness.value e x) :
    (∃ t, x.toValue.display = .ok t) ↔ ∀ n, x.toValue = .number n → n.Short := by
  cases x with
  | number n =>
      have hn : n.Representable := by
        rcases hx n rfl with hproper | ⟨-, ⟨negative, rfl⟩, -⟩
        · exact hproper.representable
        · exact .infinite negative
      refine (Number.exists_displayText_iff hn).trans ⟨fun h m hm => ?_, fun h => h n rfl⟩
      exact Value.number.inj hm ▸ h
  | bool b => exact ⟨fun _ => nofun, fun _ => ⟨_, rfl⟩⟩
  | text t => exact ⟨fun _ => nofun, fun _ => ⟨_, rfl⟩⟩
  | cellText t => exact ⟨fun _ => nofun, fun _ => ⟨_, rfl⟩⟩

/-- What a formula shows is displayed unless it is too long an integer. -/
theorem display_evaluate_iff {cells : Cells} {source : RandomSource} (h : InFormat cells source)
    (strict : Bool) (clock : Moment) (limit : Option Nat) (text : String) :
    let outcome := ((evaluate strict clock limit cells (.text text)).run source).1
    (∃ t, outcome.shown.display = .ok t) ↔ ∀ n, outcome = .ok (.number n) → n.Short := by
  intro outcome
  cases ho : outcome with
  | error cause => exact ⟨fun _ => nofun, fun _ => ⟨_, rfl⟩⟩
  | ok v =>
      have hv := (keeps_finiteness strict).evaluate (fun _ => id)
        (fun a u hu => Except.ok.inj hu ▸ h.cells a) h.fractions clock limit
        (fun _ _ _ _ => trivial) (fun _ _ => trivial) ho
      have hok : (∀ n, (.ok v : Outcome) = .ok (.number n) → n.Short) ↔
          ∀ n, v = .number n → n.Short :=
        forall_congr' fun n => by rw [Except.ok.injEq]
      rw [hok]
      rcases hv with rfl | ⟨e, x, hx, rfl⟩
      · exact ⟨fun _ => nofun, fun _ => ⟨_, rfl⟩⟩
      · exact display_toValue hx

/-- There is one cause for which what a formula shows is not displayed. -/
theorem cause_of_display_evaluate {cells : Cells} {source : RandomSource}
    (h : InFormat cells source) {strict : Bool} {clock : Moment} {limit : Option Nat} {text : String}
    {cause : Failure}
    (hdisplay : ((evaluate strict clock limit cells (.text text)).run source).1.shown.display =
      .error cause) : cause = .integerTooLongToWrite := by
  have hnone : ¬ ∃ t, ((evaluate strict clock limit cells (.text text)).run
      source).1.shown.display = .ok t := by
    rintro ⟨t, ht⟩
    cases hdisplay.symm.trans ht
  have hlong := mt (display_evaluate_iff h strict clock limit text).mpr hnone
  push Not at hlong
  obtain ⟨n, hn, -⟩ := hlong
  rw [hn] at hdisplay
  exact Number.cause_of_displayText hdisplay

/-! ## Where long integers come from -/

/-- Whether an operator can come to an integer that is longer than its operands. -/
def BinaryOp.Lengthens (op : BinaryOp) : Prop :=
  op = .add ∨ op = .sub ∨ op = .mul ∨ op = .pow

/-- Whether a function can come to an integer that is longer than its arguments. -/
def Function.Lengthens (f : Function) : Prop :=
  f = .aggregate .sum ∨ f = .math .power ∨ f = .math .ceiling ∨ f = .math .floor

/-- The operator of an expression. -/
def Expr.operator? : Expr → Option BinaryOp
  | .binary op _ _ => some op
  | _ => none

/-- The operators in the formula of a text. -/
def operators (text : String) : List BinaryOp :=
  match parse text with
  | .ok e => e.parts.filterMap Expr.operator?
  | .error _ => []

theorem mem_operators {text : String} {e left right : Expr} {op : BinaryOp}
    (he : parse text = .ok e) (h : .binary op left right ∈ e.parts) : op ∈ operators text := by
  unfold operators
  rw [he]
  exact List.mem_filterMap.mpr ⟨_, h, rfl⟩

/-- What is watched to find integers that are too long. -/
def shortness : Watch where
  answers _ r := ∀ v, r = .ok v → v.Short
  fractions _ := True
  stops _ := False
  number := Number.Short
  value _ x := ∀ n, x = .number n → n.Short

theorem short_ofNat_of_le {n : Nat} (h : n ≤ 9999) : (Number.int n).Short := by
  have hbound : 9999 < 10 ^ Number.maxDigits := by decide +kernel
  exact (Int.natAbs_natCast n).trans_lt (h.trans_lt hbound)

theorem daysInMonth_le (year month : Nat) : daysInMonth year month ≤ 31 := by
  unfold daysInMonth
  split
  · split <;> decide
  · split <;> decide

theorem keeps_shortness (strict : Bool) :
    shortness.Keeps strict strict
      (fun p => ∀ op left right, p = .binary op left right → ¬ op.Lengthens)
      (fun f => ¬ f.Lengthens ∧ ¬ f.Counts) where
  date d := by
    have hmonth := d.month_le
    have hday := d.day_le.trans (daysInMonth_le d.year d.month)
    exact ⟨short_ofNat_of_le d.year_le, short_ofNat_of_le (by omega), short_ofNat_of_le (by omega)⟩
  count i hf hcounts := absurd hcounts hf.2
  fraction _ := trivial
  literal := short_numberLiteral
  ofText := short_numberOfText?
  sign op _ hn := by
    cases op with
    | neg => exact hn.neg
    | pos => exact hn
  percent _ h := Number.short_quotient h
  compute {op f left right l m n} hread hop _ _ h := by
    obtain ⟨k, hk, h⟩ := exists_of_bind h
    refine .of_checked h ?_
    have hop' := hread op left right rfl
    cases op <;> simp only [arithmetic?, Option.some.injEq, reduceCtorEq] at hop
    · exact absurd (.inl rfl) hop'
    · exact absurd (.inr (.inl rfl)) hop'
    · exact absurd (.inr (.inr (.inl rfl))) hop'
    · subst hop
      exact Number.short_div hk
    · exact absurd (.inr (.inr (.inr rfl))) hop'
  total hf _ _ := absurd (.inl rfl) hf.1
  mean _ h := by
    unfold Aggregate.mean at h
    split at h
    · cases h
    · obtain ⟨sum, -, h⟩ := exists_of_bind h
      obtain ⟨k, hk, h⟩ := exists_of_bind h
      exact .of_checked h (Number.short_quotient hk)
  catches _ _ := id
  bool _ _ := nofun
  text _ _ := nofun
  ofNumber _ {n} hn m h := Scalar.number.inj h ▸ hn
  cell {a v x} _ hv hx n h := by
    subst h
    exact Value.toScalar_short (hv v rfl) hx
  inRange {a v n} hv h := Value.number?_short (hv v rfl) h
  operand {e x} function hx := .same fun n hn => Scalar.asNumber_short hx hn
  math {opener args f ns n} _ hf hns h m hm := by
    obtain rfl := Scalar.number.inj hm
    refine MathFunction.compute_short ⟨?_, ?_, ?_⟩ hns h
    · rintro rfl
      exact hf.1 (.inr (.inl rfl))
    · rintro rfl
      exact hf.1 (.inr (.inr (.inl rfl)))
    · rintro rfl
      exact hf.1 (.inr (.inr (.inr rfl)))
  branch _ _ hx := hx
  fallback _ _ hx := hx

/-- Whether the values of all formulas are displayed whose operators and functions are allowed, among
cells of which none holds too long an integer. -/
def DisplaysAll (allowedOperator : BinaryOp → Prop) (allowed : Function → Prop) : Prop :=
  ∀ strict clock limit cells source text, InFormat cells source → (∀ a, (cells.get a).Short) →
    (∀ op ∈ operators text, allowedOperator op) → (∀ f ∈ callees text, allowed f) →
      ∃ t, ((evaluate strict clock limit cells (.text text)).run source).1.shown.display = .ok t

theorem displaysAll {allowedOperator : BinaryOp → Prop} {allowed : Function → Prop}
    (hoperators : ∀ op, allowedOperator op → ¬ op.Lengthens)
    (hfunctions : ∀ f, allowed f → ¬ f.Lengthens ∧ ¬ f.Counts) :
    DisplaysAll allowedOperator allowed := by
  intro strict clock limit cells source text hformat hshort hops hcallees
  refine (display_evaluate_iff hformat strict clock limit text).mpr fun n hn => ?_
  have hv := (keeps_shortness strict).evaluate (fun _ => id)
    (fun a u hu => Except.ok.inj hu ▸ hshort a) (fun _ => trivial) clock limit ?_
    (fun f hf => hfunctions f (hcallees f hf)) hn
  · rcases hv with hv | ⟨e, x, hx, hxv⟩
    · cases hv
    · cases x with
      | number m => exact Value.number.inj hxv ▸ hx m rfl
      | bool b => cases hxv
      | text t => cases hxv
      | cellText t => cases hxv
  · rintro e he p hp op left right rfl
    exact hoperators op (hops op (mem_operators he hp))

/-- The longest integer that is written out. -/
def longest : Int :=
  10 ^ Number.maxDigits - 1

/-- The longest integers that are written out, and a power of ten with as many digits. -/
def longCells : Cells :=
  .ofList [("A1", .number (.int longest)), ("B1", .number (.int (-longest))),
    ("C1", .number (.int 2)), ("D1", .number (.int (10 ^ (Number.maxDigits - 1))))]

theorem get_longCells (a : String) : longCells.get a = .null ∨
    ∃ i, (Number.int i).Short ∧ longCells.get a = .number (.int i) := by
  have hshort : ∀ e ∈ longCells.entries, ∃ i, (Number.int i).Short ∧ e.2 = .number (.int i) := by
    have hentries : longCells.entries = [("A1", .number (.int longest)),
        ("B1", .number (.int (-longest))), ("C1", .number (.int 2)),
        ("D1", .number (.int (10 ^ (Number.maxDigits - 1))))] := by
      simp [longCells, Cells.ofList, Cells.insert, Cells.put, Cells.empty]
    rw [hentries]
    simp only [List.forall_mem_cons, List.not_mem_nil, false_implies, implies_true, and_true]
    exact ⟨⟨_, by decide +kernel, rfl⟩, ⟨_, by decide +kernel, rfl⟩, ⟨_, by decide +kernel, rfl⟩,
      ⟨_, by decide +kernel, rfl⟩⟩
  unfold Cells.get Cells.find?
  cases ho : longCells.entries.lookup a with
  | none => exact .inl rfl
  | some v => exact .inr (hshort _ (Pass.mem_of_lookup ho))

/-- What is displayed of a formula among long integers. -/
def longDisplay (text : String) : Except Failure String :=
  ((evaluate false noon none longCells (.text text)).run (.scripted [] [])).1.shown.display

/-- A formula that is not displayed among long integers uses what is not allowed. -/
theorem not_displaysAll {allowedOperator : BinaryOp → Prop} {allowed : Function → Prop}
    {text : String} (hlong : (longDisplay text).isOk = false)
    (hoperators : ∀ op ∈ operators text, allowedOperator op)
    (hfunctions : ∀ f ∈ callees text, allowed f) : ¬ DisplaysAll allowedOperator allowed := by
  intro hall
  have hformat : InFormat longCells (.scripted [] []) := by
    refine ⟨fun a x hx => ?_, fun n => ?_⟩
    · rcases get_longCells a with h | ⟨i, -, h⟩
      · cases h.symm.trans hx
      · cases h.symm.trans hx
    · have hzero : (Number.float (.ofInt 0)).Proper :=
        ⟨by decide +kernel, Binary64.representable_ofInt 0⟩
      simpa only [RandomSource.scripted, RandomSource.cycle, List.getD_nil] using hzero
  have hshort : ∀ a, (longCells.get a).Short := by
    intro a n hn
    rcases get_longCells a with h | ⟨i, hi, h⟩
    · cases h.symm.trans hn
    · obtain rfl := Value.number.inj (h.symm.trans hn)
      exact hi
  obtain ⟨t, ht⟩ := hall false noon none longCells (.scripted [] []) text hformat hshort hoperators
    hfunctions
  have hok : longDisplay text = .ok t := ht
  rw [hok] at hlong
  cases hlong

theorem exists_of_operator {op : BinaryOp} (h : op.Lengthens) :
    ∃ text, operators text = [op] ∧ callees text = [] ∧ (longDisplay text).isOk = false := by
  rcases h with rfl | rfl | rfl | rfl
  · exact ⟨"=A1+A1", by decide +kernel⟩
  · exact ⟨"=A1-B1", by decide +kernel⟩
  · exact ⟨"=A1*A1", by decide +kernel⟩
  · exact ⟨"=A1^C1", by decide +kernel⟩

theorem exists_of_function {f : Function} (h : f.Lengthens) :
    ∃ text, operators text = [] ∧ callees text = [f] ∧ (longDisplay text).isOk = false := by
  rcases h with rfl | rfl | rfl | rfl
  · exact ⟨"=SUM(A1,A1)", by decide +kernel⟩
  · exact ⟨"=POWER(A1,C1)", by decide +kernel⟩
  · exact ⟨"=CEILING(A1,D1)", by decide +kernel⟩
  · exact ⟨"=FLOOR(A1,D1)", by decide +kernel⟩

/-- Where nothing is counted or drawn, all values are displayed exactly as long as nothing is allowed
that can come to a longer integer. -/
theorem displaysAll_iff {allowedOperator : BinaryOp → Prop} {allowed : Function → Prop}
    (hcounts : ∀ f, allowed f → ¬ f.Counts) : DisplaysAll allowedOperator allowed ↔
      (∀ op, allowedOperator op → ¬ op.Lengthens) ∧ ∀ f, allowed f → ¬ f.Lengthens := by
  refine ⟨fun hall => ⟨fun op hop hlong => ?_, fun f hf hlong => ?_⟩, fun h => ?_⟩
  · obtain ⟨text, hoperators, hcallees, hdisplay⟩ := exists_of_operator hlong
    refine not_displaysAll hdisplay (fun op' hop' => ?_) (fun f hf => ?_) hall
    · rw [hoperators, List.mem_singleton] at hop'
      exact hop' ▸ hop
    · rw [hcallees] at hf
      exact absurd hf List.not_mem_nil
  · obtain ⟨text, hoperators, hcallees, hdisplay⟩ := exists_of_function hlong
    refine not_displaysAll hdisplay (fun op hop => ?_) (fun f' hf' => ?_) hall
    · rw [hoperators] at hop
      exact absurd hop List.not_mem_nil
    · rw [hcallees, List.mem_singleton] at hf'
      exact hf' ▸ hf
  · exact displaysAll h.1 fun f hf => ⟨h.2 f hf, hcounts f hf⟩

end Formula

end Worksheet
