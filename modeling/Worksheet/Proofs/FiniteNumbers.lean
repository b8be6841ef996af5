import Worksheet.Formula.Evaluation
import Worksheet.Proofs.Failing
import Worksheet.Proofs.Magnitudes

/-!
# Finite numbers

What is computed with is a finite number of the format, or an integer.  Each operation that could
come to anything else is checked, and one that is not checked keeps finite numbers finite.  The only
one that does neither is rounding to a place: a number can be rounded beyond the greatest one.
-/

namespace Worksheet

open Binary64 (representable_ofInt representable_ofRatio)

/-! ## Arithmetic on numbers -/

namespace Number

/-- An integer, or what the binary64 format can hold. -/
def Representable : Number → Prop
  | int _ => True
  | float x => x.Representable

variable {l m n : Number}

theorem isFinite_of_checked (h : m.checked = .ok n) : m = n ∧ n.isFinite = true := by
  unfold checked at h
  split at h
  · next hm =>
      obtain rfl := Except.ok.inj h
      exact ⟨rfl, hm⟩
  · cases h

/-- The binary64 number that a number is taken for: the nearest one, if that is finite, or itself. -/
theorem toBinary64_eq_ok {x : Binary64} (h : n.toBinary64 = .ok x) :
    (∃ i, n = int i ∧ x.isFinite = true ∧ x = .ofInt i) ∨ n = float x := by
  cases n with
  | int i =>
      simp only [toBinary64] at h
      split at h
      · next hfinite =>
          obtain rfl := Except.ok.inj h
          exact .inl ⟨i, rfl, hfinite, rfl⟩
      · cases h
  | float y => exact .inr (congrArg float (Except.ok.inj h))

theorem toBinary64_representable (hn : n.Representable) {x : Binary64} (h : n.toBinary64 = .ok x) :
    x.Representable := by
  rcases toBinary64_eq_ok h with ⟨i, -, -, hx⟩ | rfl
  · exact hx ▸ representable_ofInt i
  · exact hn

theorem isFinite_toBinary64 (hn : n.isFinite = true) {x : Binary64} (h : n.toBinary64 = .ok x) :
    x.isFinite = true := by
  rcases toBinary64_eq_ok h with ⟨i, -, hfinite, -⟩ | rfl
  · exact hfinite
  · exact hn

theorem isZero_toBinary64 (hn : n.isZero = false) {x : Binary64} (h : n.toBinary64 = .ok x) :
    x.isZero = false := by
  rcases toBinary64_eq_ok h with ⟨i, rfl, -, hx⟩ | rfl
  · exact hx ▸ Binary64.isZero_ofInt (by simpa [isZero] using hn)
  · exact hn

/-- What two operands come to in binary64 numbers. -/
theorem exists_of_rounded {f : Binary64 → Binary64 → Binary64}
    (h : (do return float (f (← m.toBinary64) (← n.toBinary64))) = .ok l) :
    ∃ x y, m.toBinary64 = .ok x ∧ n.toBinary64 = .ok y ∧ l = float (f x y) := by
  obtain ⟨x, hx, h⟩ := exists_of_bind h
  obtain ⟨y, hy, h⟩ := exists_of_bind h
  exact ⟨x, y, hx, hy, (Except.ok.inj h).symm⟩

/-- An operation on two numbers gives an integer, or what it gives for the binary64 numbers. -/
theorem exists_of_combine {exact : Int → Int → Int} {rounded : Binary64 → Binary64 → Binary64}
    (h : combine exact rounded m n = .ok l) :
    (∃ i j, m = int i ∧ n = int j ∧ l = int (exact i j)) ∨
      ∃ x y, m.toBinary64 = .ok x ∧ n.toBinary64 = .ok y ∧ l = float (rounded x y) := by
  unfold combine at h
  split at h
  · exact .inl ⟨_, _, rfl, rfl, (Except.ok.inj h).symm⟩
  · exact .inr (exists_of_rounded h)

theorem combine_representable {exact : Int → Int → Int} {rounded : Binary64 → Binary64 → Binary64}
    (hrounded : ∀ x y, (rounded x y).Representable) (h : combine exact rounded m n = .ok l) :
    l.Representable := by
  rcases exists_of_combine h with ⟨i, j, -, -, rfl⟩ | ⟨x, y, -, -, rfl⟩
  · trivial
  · exact hrounded x y

theorem add_representable (h : add m n = .ok l) : l.Representable :=
  combine_representable Binary64.representable_add h

theorem mul_representable (h : mul m n = .ok l) : l.Representable :=
  combine_representable Binary64.representable_mul h

theorem quotient_representable (h : quotient m n = .ok l) : l.Representable := by
  unfold quotient at h
  split at h
  · dsimp only at h
    split at h
    · exact Except.ok.inj h ▸ representable_ofRatio _ _ _
    · cases h
  · obtain ⟨x, y, -, -, rfl⟩ := exists_of_rounded h
    exact Binary64.representable_div x y

theorem floatPower_representable {x y z : Binary64} (hx : x.Representable)
    (h : floatPower x y = .ok z) : z.Representable := by
  have hpow : (Binary64.pow x.abs y).Representable := Binary64.representable_ofFloat _
  -- but for the machine's own power, which is finite or refused, the value is one of a few
  unfold floatPower at h
  dsimp only at h
  split at h
  · exact Except.ok.inj h ▸ representable_ofInt 1
  split at h
  · exact Except.ok.inj h ▸ .nan
  · rw [← Except.ok.inj h]
    split
    · exact representable_ofInt 1
    · exact .nan
  · split at h
    · exact Except.ok.inj h ▸ representable_ofInt 1
    · rw [← Except.ok.inj h]
      split
      · exact .infinite false
      · exact representable_ofInt 0
  · rw [← Except.ok.inj h]
    split
    · exact .infinite _
    · exact Binary64.representable_zero _
  · split at h
    · split at h
      · cases h
      · rw [← Except.ok.inj h]
        split
        · exact hx
        · exact representable_ofInt 0
    · split at h
      · split at h <;> cases h
      · split at h
        · rw [← Except.ok.inj h]
          split
          · exact hpow.neg
          · exact hpow
        · cases h

theorem foldlM_add_representable {ns : List Number} (hm : m.Representable)
    (h : ns.foldlM add m = .ok l) : l.Representable := by
  induction ns generalizing m with
  | nil => exact Except.ok.inj h ▸ hm
  | cons n ns ih =>
      rw [List.foldlM_cons] at h
      obtain ⟨k, hk, h⟩ := exists_of_bind h
      exact ih (add_representable hk) h

/-! ## Finite numbers -/

/-- A finite number, as it can be computed with. -/
structure Proper (n : Number) : Prop where
  finite : n.isFinite = true
  representable : n.Representable

namespace Proper

theorem int (i : Int) : (Number.int i).Proper :=
  ⟨rfl, trivial⟩

theorem of_checked (h : m.checked = .ok n) (hm : m.Representable) : n.Proper := by
  obtain ⟨rfl, hn⟩ := isFinite_of_checked h
  exact ⟨hn, hm⟩

theorem power (hm : m.Representable) (h : m.power n = .ok l) : l.Proper := by
  have hfloats (hl : power.inFloats m n = .ok l) : l.Proper := by
    obtain ⟨x, hx, hl⟩ := exists_of_bind hl
    obtain ⟨y, -, hl⟩ := exists_of_bind hl
    obtain ⟨z, hz, hl⟩ := exists_of_bind hl
    exact of_checked hl (floatPower_representable (toBinary64_representable hm hx) hz)
  unfold Number.power at h
  split at h
  · split at h
    · exact Except.ok.inj h ▸ int _
    · exact hfloats h
  · exact hfloats h

/-- What an operator of arithmetic comes to, once it is checked. -/
theorem arithmetic {op : Formula.BinaryOp} {f : Number → Number → Except Failure Number}
    (hop : Formula.arithmetic? op = some f) (hm : m.Proper) (h : (do (← f m n).checked) = .ok l) :
    l.Proper := by
  -- the check sees to it that the result is finite, so it only has to be one of the format
  obtain ⟨k, hk, h⟩ := exists_of_bind h
  refine of_checked h ?_
  cases op <;> simp only [Formula.arithmetic?, Option.some.injEq, reduceCtorEq] at hop <;> subst hop
  · exact add_representable hk
  · exact combine_representable Binary64.representable_sub hk
  · exact mul_representable hk
  · unfold div at hk
    split at hk
    · cases hk
    · exact quotient_representable hk
  · exact (power hm.representable hk).representable

theorem neg (hn : n.Proper) : n.neg.Proper := by
  cases n with
  | int i => exact int (-i)
  | float x => exact ⟨(Binary64.isFinite_neg x).trans hn.finite, hn.representable.neg⟩

theorem abs (hn : n.Proper) : n.abs.Proper := by
  cases n with
  | int i => exact int i.natAbs
  | float x => exact ⟨(Binary64.isFinite_abs x).trans hn.finite, hn.representable.abs⟩

theorem percent (hn : n.Proper) (h : n.percent = .ok m) : m.Proper := by
  refine ⟨?_, quotient_representable h⟩
  cases n with
  | int i =>
      simp only [Number.percent, quotient] at h
      split at h
      · next hfinite => exact Except.ok.inj h ▸ hfinite
      · cases h
  | float x =>
      obtain ⟨y, z, hy, hz, rfl⟩ := exists_of_rounded h
      obtain rfl := Except.ok.inj hy
      rcases toBinary64_eq_ok hz with ⟨i, hi, -, hz⟩ | hz
      · obtain rfl := Number.int.inj hi
        exact hz ▸ Binary64.isFinite_hundredth hn.finite hn.representable
      · cases hz

theorem mod (hm : m.Proper) (hn : n.Proper) (hzero : n.isZero = false) (h : m.mod n = .ok l) :
    l.Proper := by
  rcases exists_of_combine h with ⟨i, j, -, -, rfl⟩ | ⟨x, y, hx, hy, rfl⟩
  · exact int (i.fmod j)
  · have hx' := toBinary64_representable hm.representable hx
    have hy' := toBinary64_representable hn.representable hy
    exact ⟨Binary64.isFinite_mod (isFinite_toBinary64 hm.finite hx)
      (isFinite_toBinary64 hn.finite hy) (isZero_toBinary64 hzero hy) hy',
      Binary64.representable_mod hx' hy'⟩

theorem map {f : Binary64 → Binary64} (hf : ∀ x, (f x).Representable) (h : n.map f = .ok m) :
    m.Proper := by
  obtain ⟨x, -, h⟩ := exists_of_bind h
  exact of_checked h (hf x)

theorem sqrt (h : n.sqrt = .ok m) : m.Proper := by
  unfold Number.sqrt at h
  split at h
  · obtain ⟨_, -, h⟩ := exists_of_bind h
    cases h
  · exact map (fun _ => Binary64.representable_ofFloat _) h

theorem log10 (h : n.log10 = .ok m) : m.Proper := by
  have hfloat (x : Binary64) : (float x.log10).Representable := Binary64.representable_ofFloat _
  have hlarge (i : Nat) : (float (log10Large i)).Representable := by
    have hscaled (x : Binary64) (bits : Nat) : (float (log10Scaled x bits)).Representable :=
      Binary64.representable_add _ _
    unfold log10Large
    dsimp only
    split
    · exact hscaled _ _
    · exact hscaled _ _
  unfold Number.log10 at h
  cases n with
  | int i =>
      dsimp only at h
      split at h
      · obtain ⟨_, -, h⟩ := exists_of_bind h
        cases h
      · refine of_checked h ?_
        split
        · exact hfloat _
        · exact hlarge _
  | float x =>
      dsimp only at h
      split at h
      · obtain ⟨_, -, h⟩ := exists_of_bind h
        cases h
      · exact of_checked h (hfloat x)

theorem toMultiple {near : Number → Except Failure Int} (h : Number.toMultiple near m n = .ok l) :
    l.Proper := by
  unfold Number.toMultiple at h
  split at h
  · exact Except.ok.inj h ▸ int 0
  · obtain ⟨q, -, h⟩ := exists_of_bind h
    obtain ⟨i, -, h⟩ := exists_of_bind h
    obtain ⟨k, hk, h⟩ := exists_of_bind h
    exact of_checked h (mul_representable hk)

end Proper

/-- Rounding comes to a finite number, or to an infinite one. -/
theorem round_cases {places : Int} (hm : m.Proper) (h : m.round places = .ok n) :
    n.Proper ∨ ∃ negative, n = float (.infinite negative) := by
  have hfloats (h : round.roundFloat places m = .ok n) :
      n.Proper ∨ ∃ negative, n = float (.infinite negative) := by
    unfold round.roundFloat at h
    obtain ⟨x, hx, h⟩ := exists_of_bind h
    have hfinite := isFinite_toBinary64 hm.finite hx
    cases x with
    | infinite s => cases hfinite
    | nan => cases hfinite
    | finite s units =>
        obtain ⟨digits, exponent, rfl⟩ : ∃ digits exponent,
            n = float (.ofDecimal s digits exponent) := ⟨_, _, (Except.ok.inj h).symm⟩
        have hnan := Binary64.ofDecimal_ne_nan s digits exponent
        have hheld := Binary64.representable_ofDecimal s digits exponent
        -- a decimal is not rounded to a NaN, so what is not infinite is finite
        generalize Binary64.ofDecimal s digits exponent = y at hnan hheld
        cases y with
        | finite t k => exact .inl ⟨rfl, hheld⟩
        | infinite t => exact .inr ⟨t, rfl⟩
        | nan => exact absurd rfl hnan
  unfold round at h
  split at h
  · split at h
    · exact Except.ok.inj h ▸ .inl (.int _)
    · exact hfloats h
  · exact hfloats h

end Number

/-! ## Reading numbers -/

theorem Number.ofNumeral_representable {numeral : Decimal.Numeral} {n : Number}
    (h : Number.ofNumeral numeral = .ok n) : n.Representable := by
  unfold Number.ofNumeral at h
  split at h
  · split at h
    · cases h
    · exact Except.ok.inj h ▸ trivial
  · exact Except.ok.inj h ▸ Binary64.representable_ofDecimal _ _ _

theorem numberOfText?_proper {text : String} {n : Number} (h : numberOfText? text = .ok (some n)) :
    n.Proper := by
  unfold numberOfText? at h
  split at h
  · cases h
  · obtain ⟨m, hm, h⟩ := exists_of_bind h
    have h := Except.ok.inj h
    split at h
    · next hfinite =>
        obtain rfl := Option.some.inj h
        exact ⟨hfinite, Number.ofNumeral_representable hm⟩
    · cases h

theorem Scalar.asNumber_proper {strict : Bool} {function : Option String} {x : Scalar} {n : Number}
    (hx : ∀ m, x = .number m → m.isFinite = true → m.Proper)
    (h : x.asNumber strict function = .ok n) : n.Proper := by
  cases x with
  | number m =>
      simp only [asNumber] at h
      split at h
      · next hfinite => exact Except.ok.inj h ▸ hx m rfl hfinite
      · obtain ⟨_, -, h⟩ := exists_of_bind h
        cases h
  | bool b => exact Except.ok.inj h ▸ .int _
  | text t =>
      obtain ⟨o, ho, h⟩ := exists_of_bind h
      cases o with
      | none => cases h
      | some m => exact Except.ok.inj h ▸ numberOfText?_proper ho
  | cellText t =>
      simp only [asNumber] at h
      split at h
      · cases h
      · exact Except.ok.inj h ▸ .int 0

/-- A value whose number, if it is one, the format can hold. -/
def Value.Representable (v : Value) : Prop :=
  ∀ x, v = .number (.float x) → x.Representable

theorem Value.number?_proper {v : Value} {n : Number} (hv : v.Representable)
    (h : v.number? = .ok (some n)) : n.Proper := by
  cases v with
  | null => cases h
  | bool b =>
      obtain rfl := Option.some.inj (Except.ok.inj h)
      exact .int _
  | number m =>
      have h := Except.ok.inj h
      split at h
      · next hfinite =>
          obtain rfl := Option.some.inj h
          cases m with
          | int i => exact .int i
          | float x => exact ⟨hfinite, hv x rfl⟩
      · cases h
  | text t => exact numberOfText?_proper h
  | list items => cases h
  | dict entries => cases h
  | stamp shown quoted => cases h

theorem Value.toScalar_proper {v : Value} {n : Number} (hv : v.Representable)
    (h : v.toScalar = .ok (.number n)) : n.Proper := by
  unfold toScalar at h
  split at h
  · obtain rfl := Scalar.number.inj (Except.ok.inj h)
    exact .int 0
  · obtain ⟨o, ho, h⟩ := exists_of_bind h
    cases o with
    | none =>
        obtain ⟨_, -, h⟩ := exists_of_bind h
        cases h
    | some m =>
        obtain rfl := Scalar.number.inj (Except.ok.inj h)
        exact number?_proper hv ho

namespace Formula

theorem numberLiteral_proper {text : String} {n : Number} (h : numberLiteral text = .ok n) :
    n.Proper := by
  unfold numberLiteral at h
  split at h
  · obtain ⟨m, hm, h⟩ := exists_of_bind h
    exact .of_checked h (Number.ofNumeral_representable hm)
  · cases h

/-- A mathematical function gives a finite number, or fails, unless it is `ROUND`. -/
theorem MathFunction.compute_proper {f : MathFunction} {ns : List Number} {n : Number}
    (hf : f ≠ .round) (hns : ∀ m ∈ ns, m.Proper) (h : f.compute ns = .ok n) : n.Proper := by
  have hfloat (g : Float → Float) (x : Binary64) :
      (Binary64.ofFloat (g x.toFloat)).Representable := Binary64.representable_ofFloat _
  unfold compute at h
  split at h
  · exact .power (hns _ List.mem_cons_self).representable h
  · exact .sqrt h
  · exact .map (fun _ => hfloat _ _) h
  · exact .map (fun _ => hfloat _ _) h
  · exact .map (fun _ => hfloat _ _) h
  · exact .log10 h
  -- rounding is left out
  · exact absurd rfl hf
  · exact absurd rfl hf
  · exact .toMultiple h
  · exact .toMultiple h
  · exact .toMultiple h
  · exact .toMultiple h
  · exact Except.ok.inj h ▸ (hns _ List.mem_cons_self).abs
  · split at h
    · cases h
    · next hzero =>
        exact .mod (hns _ List.mem_cons_self) (hns _ (by simp)) (by simpa using hzero) h
  · exact Except.ok.inj h ▸ ⟨by decide +kernel, Binary64.representable_ofBits _⟩
  · exact Except.ok.inj h ▸ ⟨by decide +kernel, Binary64.representable_ofBits _⟩
  · cases h

/-- `ROUND` rounds its first argument. -/
theorem MathFunction.exists_of_compute_round {ns : List Number} {n : Number}
    (h : compute .round ns = .ok n) : ∃ m ∈ ns, ∃ places, m.round places = .ok n := by
  match ns, h with
  | [m], h => exact ⟨m, List.mem_cons_self, 0, h⟩
  | [m, l], h =>
      obtain ⟨places, -, h⟩ := exists_of_bind h
      exact ⟨m, List.mem_cons_self, places, h⟩

end Formula

end Worksheet
