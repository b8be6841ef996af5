import Worksheet.Proofs.FiniteNumbers
import Worksheet.Proofs.Results

/-!
# Finite results

Arithmetic refuses a number that is not finite, as an operand and as a result, and so do the functions
but one: what `ROUND` comes to is not checked.  Rounding a finite number to a place far before the
point can go beyond the greatest number of the format, and then it is infinite.

Such a number cannot be computed with, but it can be the value of a formula if `ROUND` is called
where the value comes from.  That is the only way to a value that is not finite.
-/

namespace Worksheet

namespace Formula

/-! ## Where values come from -/

/-- The result of a function can be the value of an expression: the function is called, or `IF` or
`IFERROR` passes on what it has come to. -/
inductive Expr.Yields (f : Function) : Expr → Prop where
  | call {opener : String} {args : List Expr} :
      Function.named? (nameOfOpener opener) = some f → Yields f (.call opener args)
  | branch {opener : String} {condition e : Expr} {branches : List Expr} :
      Function.named? (nameOfOpener opener) = some (.conditional .ifThen) → e ∈ branches →
        Yields f e → Yields f (.call opener (condition :: branches))
  | fallback {opener : String} {args : List Expr} {e : Expr} :
      Function.named? (nameOfOpener opener) = some (.conditional .ifError) → e ∈ args →
        Yields f e → Yields f (.call opener args)

/-- An infinite number that `ROUND` has rounded a finite one to, and that is passed on. -/
def RoundedBeyond (e : Expr) (n : Number) : Prop :=
  e.Yields (.math .round) ∧ (∃ negative, n = .float (.infinite negative)) ∧
    ∃ m : Number, m.Proper ∧ ∃ places, m.round places = .ok n

theorem RoundedBeyond.not_finite {e : Expr} {n : Number} (h : RoundedBeyond e n) :
    n.isFinite = false := by
  obtain ⟨-, ⟨negative, rfl⟩, -⟩ := h
  rfl

/-- What is watched to find the values that are not finite. -/
def finiteness : Watch where
  answers _ r := ∀ v, r = .ok v → v.Representable
  fractions x := (Number.float x).Proper
  stops _ := False
  number := Number.Proper
  value e x := ∀ n, x = .number n → n.Proper ∨ RoundedBeyond e n

theorem keeps_finiteness (strict : Bool) :
    finiteness.Keeps strict strict (fun _ => True) (fun _ => True) where
  date d := ⟨.int _, .int _, .int _⟩
  count i _ _ := .int i
  fraction h := h
  literal := numberLiteral_proper
  ofText := numberOfText?_proper
  sign op _ hn := by
    cases op with
    | neg => exact hn.neg
    | pos => exact hn
  percent hm h := hm.percent h
  compute _ hop hl _ h := hl.arithmetic hop h
  total _ _ h := by
    obtain ⟨k, hk, h⟩ := exists_of_bind h
    exact .of_checked h (Number.foldlM_add_representable (Number.Proper.int 0).representable hk)
  mean _ h := by
    unfold Aggregate.mean at h
    split at h
    · cases h
    · obtain ⟨sum, -, h⟩ := exists_of_bind h
      obtain ⟨k, hk, h⟩ := exists_of_bind h
      exact .of_checked h (Number.quotient_representable hk)
  catches _ _ := id
  bool _ _ := nofun
  text _ _ := nofun
  ofNumber _ {n} hn m h := by
    obtain rfl := Scalar.number.inj h
    exact .inl hn
  cell {a v x} _ hv hx n h := by
    subst h
    exact .inl (Value.toScalar_proper (hv v rfl) hx)
  inRange {a v n} hv h := Value.number?_proper (hv v rfl) h
  operand {e x} function hx := .same fun n hn => by
    refine Scalar.asNumber_proper (fun m hm hfinite => ?_) hn
    -- an infinite number that has been passed on is refused as an operand
    rcases hx m hm with hproper | hbeyond
    · exact hproper
    · exact absurd (hfinite.symm.trans hbeyond.not_finite) nofun
  math {opener args f ns n} hf _ hns h m hm := by
    obtain rfl := Scalar.number.inj hm
    -- only the result of `ROUND` is not checked
    by_cases hround : f = .round
    · subst hround
      obtain ⟨m, hm, places, hplaces⟩ := MathFunction.exists_of_compute_round h
      exact (Number.round_cases (hns m hm) hplaces).imp_right fun hinfinite =>
        ⟨.call hf, hinfinite, m, hns m hm, places, hplaces⟩
    · exact .inl (MathFunction.compute_proper hround hns h)
  branch hn he hx n h := (hx n h).imp_right fun h => ⟨.branch hn he h.1, h.2⟩
  fallback hn he hx n h := (hx n h).imp_right fun h => ⟨.fallback hn he h.1, h.2⟩

/-! ## Finite values -/

/-- Cells are answered for with numbers of the format, finite or not, and random fractions are
finite, in given states, which are not left. -/
structure Supplies {σ : Type} (answer : String → Nat → StateM σ (Except Failure Value))
    (fraction : StateM σ Binary64) (integer : Int → Int → StateM σ Int) (I : σ → Prop) : Prop where
  answered : ∀ a depth p, I p →
    (∀ v, ((answer a depth).run p).1 = .ok v → v.Representable) ∧ I ((answer a depth).run p).2
  drawn : ∀ p, I p → (Number.float (fraction.run p).1).Proper ∧ I (fraction.run p).2
  chosen : ∀ low high p, I p → I ((integer low high).run p).2

/-- Plain cells with numbers of the format, and a random source with finite fractions. -/
theorem supplies_cells {cells : Cells} (h : ∀ a, (cells.get a).Representable) :
    Supplies (fun a _ => return .ok (cells.get a)) RandomSource.drawFraction RandomSource.drawInteger
      fun source => ∀ n, (Number.float (source.fraction n)).Proper where
  answered a _ _ hsource := by
    refine ⟨fun v hv => ?_, hsource⟩
    obtain rfl := Except.ok.inj hv
    exact h a
  drawn source hsource := ⟨hsource source.fractionsDrawn, hsource⟩
  chosen _ _ _ hsource := hsource

/-- Whether something is known of each number that an expression comes to, in any setting, whatever
answers for the cells and wherever random numbers come from. -/
def KnownOfNumbers (P : Expr → Number → Prop) : Prop :=
  ∀ {σ : Type} {answer : String → Nat → StateM σ (Except Failure Value)}
    {fraction : StateM σ Binary64} {integer : Int → Int → StateM σ Int} {I : σ → Prop},
    Supplies answer fraction integer I → ∀ (s : Setting) (depth : Nat) (text : String) (e : Expr),
      parse text = .ok e → ∀ p, I p → ∀ n,
        (((outcomeAt s depth text).run answer fraction integer).run p).1 = .ok (.number n) → P e n

/-- Numbers that are not finite come from `ROUND` alone. -/
theorem knownOfNumbers : KnownOfNumbers fun e n => n.isFinite = true ∨ RoundedBeyond e n := by
  intro σ answer fraction integer I hs s depth text e he p hp n hn
  have hself := (keeps_finiteness s.strict).outcomeAt (s := s) depth text
    (fun _ _ _ _ => trivial) fun _ _ => trivial
  rcases hself.run answer fraction integer I hs.answered hs.drawn hs.chosen p hp with
    ⟨_, -, hstop⟩ | ⟨-, hvalue⟩
  · exact hstop.elim
  · obtain ⟨e', x, he', hx, htext⟩ := hvalue _ hn
    obtain rfl := Except.ok.inj (he.symm.trans he')
    cases x with
    | number m =>
        obtain rfl := Value.number.inj htext
        exact (hx m rfl).imp_left (·.finite)
    | bool b => cases htext
    | text t => cases htext
    | cellText t => cases htext

/-- The numbers that formulas come to are finite, where a value is the result of an allowed
function if it is that of a function. -/
def FiniteValues (allowed : Function → Prop) : Prop :=
  KnownOfNumbers fun e n => (∀ f, e.Yields f → allowed f) → n.isFinite = true

theorem parse_roundBeyond : parse "=ROUND(1.7E308,-308)" =
    .ok (.call "ROUND(" [.number "1.7E308", .sign .neg (.number "308")]) := by
  cbv

/-- A number is rounded to one that is infinite. -/
theorem exists_roundBeyond : ∃ x, numberLiteral "1.7E308" = .ok (.float x) ∧ ∀ strict,
    MathFunction.apply strict .round [.number (.float x), .number (.int (-308))] =
      .ok (.number (.float (.infinite false))) := by
  refine ⟨.ofDecimal false 17 307, by decide +kernel, fun strict => ?_⟩
  cases strict
  · decide +kernel
  · decide +kernel

/-- Where only the first digit of a number near the greatest ones is kept, it becomes infinite. -/
theorem outcomeAt_roundBeyond (strict : Bool) (clock : Moment) (keys : List String) (depth : Nat) :
    outcomeAt ⟨strict, clock, none, keys⟩ depth "=ROUND(1.7E308,-308)" =
      .done (.ok (.number (.float (.infinite false)))) := by
  obtain ⟨x, hliteral, happly⟩ := exists_roundBeyond
  have hplaces : numberLiteral "308" = .ok (.int 308) := by decide +kernel
  have hround : Function.named? (nameOfOpener "ROUND(") = some (.math .round) := by decide +kernel
  let s : Setting := ⟨strict, clock, none, keys⟩
  have hshallow (depth : Nat) : s.exceeds depth = false := rfl
  have hnumber (depth : Nat) : eval s depth (.number "1.7E308") =
      Pure.pure (.number (.float x)) := by
    rw [eval, hshallow, hliteral]
    rfl
  have hminus (depth : Nat) : eval s depth (.sign .neg (.number "308")) =
      Pure.pure (.number (.int (-308))) := by
    rw [eval, hshallow, eval, hshallow, hplaces]
    rfl
  have hvalue : eval s depth (.call "ROUND(" [.number "1.7E308", .sign .neg (.number "308")]) =
      Evaluation.ofExcept (.ok (.number (.float (.infinite false)))) := by
    rw [eval, hshallow]
    simp only [hround, evalAll, hnumber, hminus]
    exact congrArg Evaluation.ofExcept (happly strict)
  have hparsed (e : Expr) (f : Expr → Evaluation Value) :
      (Evaluation.ofExcept (.ok e) >>= f) = f e := rfl
  rw [outcomeAt, parse_roundBeyond, hparsed, hvalue]
  rfl

/-- No function but `ROUND` can give that value. -/
theorem yields_roundBeyond {f : Function}
    (hf : (Expr.call "ROUND(" [.number "1.7E308", .sign .neg (.number "308")]).Yields f) :
    f = .math .round := by
  have hround : Function.named? (nameOfOpener "ROUND(") = some (.math .round) := by decide +kernel
  cases hf with
  | call hnamed => exact Option.some.inj (hnamed.symm.trans hround)
  | branch hnamed => exact absurd (hnamed.symm.trans hround) (by decide)
  | fallback hnamed => exact absurd (hnamed.symm.trans hround) (by decide)

theorem proper_scripted (n : Nat) :
    (Number.float ((RandomSource.scripted [] []).fraction n)).Proper := by
  have hzero : (Number.float (.ofInt 0)).Proper :=
    ⟨by decide +kernel, Binary64.representable_ofInt 0⟩
  simpa only [RandomSource.scripted, RandomSource.cycle, List.getD_nil] using hzero

/-- Where `ROUND` is allowed, there is a formula that comes to an infinite number. -/
theorem not_finiteValues {allowed : Function → Prop} (h : allowed (.math .round)) :
    ¬ FiniteValues allowed := by
  intro hfinite
  have hcells : ∀ a, (Cells.empty.get a).Representable := fun _ => nofun
  have hinfinite := hfinite (supplies_cells hcells) ⟨false, noon, none, []⟩ 0 _ _
    parse_roundBeyond _ proper_scripted (.float (.infinite false))
  rw [outcomeAt_roundBeyond] at hinfinite
  exact absurd (hinfinite rfl fun f hf => yields_roundBeyond hf ▸ h) nofun

/-- **A number that a formula comes to is finite, or `ROUND` has rounded beyond all finite ones.**  So
all values are finite exactly as long as none is the result of `ROUND`.  This holds of any formulas,
cells and sources of random numbers, whether text from cells is refused or not.  Where `ROUND` is
called for an operand of anything else there is no harm in it. -/
theorem finiteValues_iff (allowed : Function → Prop) :
    (KnownOfNumbers fun e n => n.isFinite = true ∨ RoundedBeyond e n) ∧
      (FiniteValues allowed ↔ ¬ allowed (.math .round)) := by
  refine ⟨knownOfNumbers, fun hfinite hround => not_finiteValues hround hfinite, fun hround => ?_⟩
  intro σ answer fraction integer I hs s depth text e he p hp n hn hyields
  rcases knownOfNumbers hs s depth text e he p hp n hn with hfinite | hbeyond
  · exact hfinite
  · exact absurd (hyields _ hbeyond.1) hround

/-- The value is infinite, and no failure. -/
theorem evaluate_roundBeyond :
    ((evaluate false noon none .empty (.text "=ROUND(1.7E308,-308)")).run (.scripted [] [])).1 =
      .ok (.number (.float (.infinite false))) := by
  have hformula : (Value.text "=ROUND(1.7E308,-308)").formula? = some "=ROUND(1.7E308,-308)" := by
    decide +kernel
  unfold evaluate
  rw [hformula]
  dsimp only
  rw [outcomeAt_roundBeyond]
  rfl

end Formula

end Worksheet
