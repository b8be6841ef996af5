import Worksheet.Decimal.Shortest
import Worksheet.Proofs.Quotients

/-!
# The shortest decimal reads back

The decimal that is chosen for a magnitude lies among the reals that round to it, so reading it gives
the magnitude again.  Seventeen digits are always enough, since a step of a grid of that many digits
is less than the gap between two neighbours in the format.
-/

namespace Worksheet

/-! ## Rounding to a number that is near -/

namespace Binary64

/-- The nearest whole number is the one at a distance of at most a half, and the even one of two. -/
theorem roundDiv_eq {n d k : Nat} (hd : 0 < d) (hlow : 2 * (k * d) ≤ 2 * n + d)
    (hhigh : 2 * n ≤ 2 * (k * d) + d)
    (htie : k % 2 = 0 ∨ 2 * (k * d) < 2 * n + d ∧ 2 * n < 2 * (k * d) + d) :
    roundDiv n d = k := by
  have hup := two_mul_roundDiv_le n hd
  have hdown := two_mul_le_roundDiv n hd
  -- of two numbers that are as near, the even one is chosen, and the next one is not even
  have hhalf : ∀ {m : Nat}, 2 * n = 2 * (m * d) + d → roundDiv n d = m + m % 2 := by
    intro m hm
    have hdivmod := Nat.div_add_mod' n d
    have hquotient : n / d = m := by
      refine Nat.div_eq_of_lt_le (by omega) ?_
      rw [Nat.succ_mul]
      omega
    rw [hquotient] at hdivmod
    rw [roundDiv_of_half (by omega), hquotient]
  rcases Nat.lt_trichotomy (roundDiv n d) k with hlt | heq | hgt
  · have hstep := Nat.mul_le_mul_right d (Nat.succ_le_of_lt hlt)
    rw [Nat.succ_mul] at hstep
    have hround := hhalf (m := roundDiv n d) (by omega)
    have hnext : k = roundDiv n d + 1 := by
      refine Nat.le_antisymm (Nat.le_of_mul_le_mul_right ?_ hd) hlt
      rw [Nat.succ_mul]
      omega
    omega
  · exact heq
  · have hstep := Nat.mul_le_mul_right d (Nat.succ_le_of_lt hgt)
    rw [Nat.succ_mul] at hstep
    have hround := hhalf (m := k) (by omega)
    omega

theorem lowBits_le_of_lt {units low : Nat} (h : units < 2 ^ (53 + low)) : lowBits units ≤ low := by
  rcases Nat.eq_zero_or_pos units with rfl | hpos
  · exact Nat.zero_le _
  · have := (Nat.log2_lt hpos.ne').mpr h
    unfold lowBits
    omega

theorem le_lowBits_of_le {units low : Nat} (h : 2 ^ (52 + low) ≤ units) : low ≤ lowBits units := by
  have hpos : units ≠ 0 := (Nat.lt_of_lt_of_le (Nat.two_pow_pos _) h).ne'
  have := (Nat.le_log2 hpos).mpr h
  unfold lowBits
  omega

/-- A magnitude of the format is a whole number of its last bits.  Where bits are dropped, all 53
are kept. -/
theorem Fits.eq_mul {units : Nat} (h : Fits units) : ∃ s, s < 2 ^ 53 ∧
    (0 < lowBits units → 2 ^ 52 ≤ s) ∧ units = s * 2 ^ lowBits units := by
  obtain ⟨significand, low, hs, heq⟩ := h
  obtain ⟨k, hk⟩ := Nat.exists_eq_add_of_le (lowBits_le hs heq.le)
  refine ⟨units / 2 ^ lowBits units, div_two_pow_lowBits_lt units, fun hpos => ?_, ?_⟩
  · rw [Nat.le_div_iff_mul_le (Nat.two_pow_pos _), ← Nat.pow_add]
    exact two_pow_le_of_lowBits_pos hpos
  · refine (Nat.div_mul_cancel ⟨significand * 2 ^ k, ?_⟩).symm
    calc units = significand * 2 ^ (lowBits units + k) := hk ▸ heq
      _ = 2 ^ lowBits units * (significand * 2 ^ k) := by ring

/-- How far below a magnitude the reals go that round to it, in quarters of its last bit.  Below a
power of two the next magnitude is only half as far away. -/
def reach (s low : Nat) : Nat :=
  if 0 < low ∧ s = 2 ^ 52 then 1 else 2

theorem reach_le (s low : Nat) : reach s low ≤ 2 := by
  unfold reach
  split <;> omega

/-- A quotient below a power of two is rounded to it if it is near. -/
theorem roundUnits_eq_two_pow {n d l : Nat} (hd : 0 < d)
    (hlow : 4 * (2 ^ 53 * (d * 2 ^ l)) ≤ 4 * n + 2 * (d * 2 ^ l))
    (hhigh : n < 2 ^ 53 * (d * 2 ^ l)) : roundUnits n d = 2 ^ 53 * 2 ^ l := by
  have hstep : 0 < d * 2 ^ l := Nat.mul_pos hd (Nat.two_pow_pos l)
  have hquotient : lowBits (n / d) = l := by
    refine Nat.le_antisymm (lowBits_le_of_lt (Nat.div_lt_of_lt_mul ?_))
      (le_lowBits_of_le ((Nat.le_div_iff_mul_le hd).mpr ?_))
    · have hpow : d * 2 ^ (53 + l) = 2 ^ 53 * (d * 2 ^ l) := by rw [Nat.pow_add]; ring
      omega
    · have hpow : 2 ^ (52 + l) * d = 2 ^ 52 * (d * 2 ^ l) := by rw [Nat.pow_add]; ring
      omega
  have hround : roundDiv n (d * 2 ^ l) = 2 ^ 53 :=
    roundDiv_eq hstep (by omega) (by omega) (.inl (by norm_num))
  rw [roundUnits_eq, hquotient, hround]

/-- **What lies among the reals that round to a magnitude is rounded to it.** -/
theorem roundUnits_eq_of_near {n d s low : Nat} (hd : 0 < d) (hs : s < 2 ^ 53)
    (hfull : 0 < low → 2 ^ 52 ≤ s)
    (hlow : 4 * (s * (d * 2 ^ low)) ≤ 4 * n + reach s low * (d * 2 ^ low))
    (hhigh : 4 * n ≤ 4 * (s * (d * 2 ^ low)) + 2 * (d * 2 ^ low))
    (htie : s % 2 = 0 ∨ 4 * (s * (d * 2 ^ low)) < 4 * n + reach s low * (d * 2 ^ low) ∧
      4 * n < 4 * (s * (d * 2 ^ low)) + 2 * (d * 2 ^ low)) :
    roundUnits n d = s * 2 ^ low := by
  have hstep : 0 < d * 2 ^ low := Nat.mul_pos hd (Nat.two_pow_pos low)
  have hreach := Nat.mul_le_mul_right (d * 2 ^ low) (reach_le s low)
  have hle : lowBits (n / d) ≤ low := by
    refine lowBits_le_of_lt (Nat.div_lt_of_lt_mul ?_)
    have hs' := Nat.mul_le_mul_right (d * 2 ^ low) (Nat.le_sub_one_of_lt hs)
    have hpow : d * 2 ^ (53 + low) = 2 ^ 53 * (d * 2 ^ low) := by rw [Nat.pow_add]; ring
    omega
  rcases hle.lt_or_eq with hlt | hsame
  · -- the quotient has fewer bits, so it is below a power of two and the magnitude is that power
    have hbelow : n < 2 ^ 52 * (d * 2 ^ low) := by
      have hquotient : n / d < 2 ^ (52 + low) :=
        Nat.lt_of_not_le fun h => absurd (le_lowBits_of_le h) (Nat.not_le.mpr hlt)
      calc n < 2 ^ (52 + low) * d := (Nat.div_lt_iff_lt_mul hd).mp hquotient
        _ = 2 ^ 52 * (d * 2 ^ low) := by rw [Nat.pow_add]; ring
    have hpower : s = 2 ^ 52 := by
      refine Nat.le_antisymm (Nat.le_of_lt_succ ?_) (hfull (Nat.zero_lt_of_lt hlt))
      refine Nat.lt_of_mul_lt_mul_right (a := d * 2 ^ low) ?_
      omega
    obtain ⟨l, rfl⟩ : ∃ l, low = l + 1 := ⟨low - 1, by omega⟩
    subst hpower
    have hhalf : d * 2 ^ (l + 1) = 2 * (d * 2 ^ l) := by ring
    rw [reach, if_pos ⟨Nat.succ_pos l, rfl⟩, hhalf] at hlow
    rw [hhalf] at hbelow
    rw [roundUnits_eq_two_pow (l := l) hd (by omega) (by omega)]
    ring
  · have hround : roundDiv n (d * 2 ^ low) = s := roundDiv_eq hstep (by omega) (by omega) (by omega)
    rw [roundUnits_eq, hsame, hround]

/-- The significant bits of a magnitude. -/
def significand (units : Nat) : Nat :=
  units / 2 ^ lowBits units

/-- Whether `n / d` units lie among the reals that round to a magnitude. -/
def Near (n d units : Nat) : Prop :=
  4 * (significand units * (d * 2 ^ lowBits units)) ≤
      4 * n + reach (significand units) (lowBits units) * (d * 2 ^ lowBits units) ∧
    4 * n ≤ 4 * (significand units * (d * 2 ^ lowBits units)) + 2 * (d * 2 ^ lowBits units) ∧
    (significand units % 2 = 0 ∨
      4 * (significand units * (d * 2 ^ lowBits units)) <
          4 * n + reach (significand units) (lowBits units) * (d * 2 ^ lowBits units) ∧
        4 * n < 4 * (significand units * (d * 2 ^ lowBits units)) + 2 * (d * 2 ^ lowBits units))

theorem Fits.significand_mul {units : Nat} (h : Fits units) :
    significand units * 2 ^ lowBits units = units := by
  obtain ⟨s, -, -, hs⟩ := h.eq_mul
  exact Nat.div_mul_cancel (Dvd.intro_left s hs.symm)

theorem significand_pos {units : Nat} (hpos : 0 < units) (hunits : Fits units) :
    0 < significand units := by
  refine Nat.pos_of_ne_zero fun hzero => ?_
  have hmul := hunits.significand_mul
  rw [hzero, Nat.zero_mul] at hmul
  omega

theorem Near.roundUnits_eq {n d units : Nat} (h : Near n d units) (hd : 0 < d)
    (hunits : Fits units) : roundUnits n d = units := by
  obtain ⟨hlow, hhigh, htie⟩ := h
  have hfull : 0 < lowBits units → 2 ^ 52 ≤ significand units := fun hpos => by
    rw [significand, Nat.le_div_iff_mul_le (Nat.two_pow_pos _), ← Nat.pow_add]
    exact two_pow_le_of_lowBits_pos hpos
  rw [roundUnits_eq_of_near (s := significand units) hd (div_two_pow_lowBits_lt units) hfull hlow
    hhigh htie, hunits.significand_mul]

/-- A quotient is the same with a factor above and below. -/
theorem near_mul_iff {c : Nat} (hc : 0 < c) (n d units : Nat) :
    Near (c * n) (c * d) units ↔ Near n d units := by
  have hstep : c * d * 2 ^ lowBits units = c * (d * 2 ^ lowBits units) := Nat.mul_assoc ..
  unfold Near
  rw [hstep]
  generalize d * 2 ^ lowBits units = step
  generalize significand units = s
  generalize reach s (lowBits units) = r
  have hpoint : 4 * (c * n) = c * (4 * n) := Nat.mul_left_comm ..
  have hbelow : 4 * (c * n) + r * (c * step) = c * (4 * n + r * step) := by ring
  have hmiddle : 4 * (s * (c * step)) = c * (4 * (s * step)) := by ring
  have habove : 4 * (s * (c * step)) + 2 * (c * step) = c * (4 * (s * step) + 2 * step) := by ring
  rw [hbelow, habove, hmiddle, hpoint, Nat.mul_le_mul_left_iff hc, Nat.mul_le_mul_left_iff hc,
    Nat.mul_lt_mul_left hc, Nat.mul_lt_mul_left hc]

/-- **On a grid of seventeen digits one of the two neighbours is near.** -/
theorem near_div_or_succ {units m d : Nat} (hunits : Fits units) (hm : 0 < m) (hd : 0 < d)
    (hgrid : 10 ^ 16 * d ≤ units * m) :
    Near (units * m / d * d) m units ∨ Near ((units * m / d + 1) * d) m units := by
  have hlt : significand units < 2 ^ 53 := div_two_pow_lowBits_lt units
  have hstep : 0 < m * 2 ^ lowBits units := Nat.mul_pos hm (Nat.two_pow_pos _)
  have hmiddle : significand units * (m * 2 ^ lowBits units) = units * m := by
    rw [Nat.mul_left_comm, hunits.significand_mul, Nat.mul_comm]
  have hfloor := Nat.div_mul_le_self (units * m) d
  have hceiling := Nat.lt_div_mul_add (a := units * m) hd
  -- a step of the grid is less than what rounds to the magnitude on both sides of it
  have hreach : 2 * d < reach (significand units) (lowBits units) *
      (m * 2 ^ lowBits units) := by
    unfold reach
    split
    · next hpower =>
      rw [hpower.2] at hmiddle
      omega
    · have hle := Nat.mul_le_mul_right (m * 2 ^ lowBits units) (Nat.le_sub_one_of_lt hlt)
      omega
  have htwo := Nat.mul_le_mul_right (m * 2 ^ lowBits units)
    (reach_le (significand units) (lowBits units))
  unfold Near
  rw [hmiddle, Nat.add_mul (units * m / d), Nat.one_mul]
  generalize units * m / d * d = floor at *
  generalize units * m = n at *
  generalize reach _ _ * (m * 2 ^ lowBits units) = below at *
  generalize m * 2 ^ lowBits units = step at *
  by_cases hnear : 4 * n < 4 * floor + below
  · exact .inl ⟨by omega, by omega, .inr ⟨by omega, by omega⟩⟩
  · exact .inr ⟨by omega, by omega, .inr ⟨by omega, by omega⟩⟩

end Binary64

namespace Decimal

open Binary64

/-! ## Powers of ten -/

theorem tenTo_eq (e : Int) : tenTo e = 10 ^ e.toNat :=
  rfl

theorem tenTo_pos (e : Int) : 0 < tenTo e :=
  Nat.pow_pos (by decide)

theorem tenTo_of_nonpos {e : Int} (h : e ≤ 0) : tenTo e = 1 := by
  rw [tenTo_eq, Int.toNat_of_nonpos h, Nat.pow_zero]

/-- Ten to the power of a sum, with what is negative on the other side. -/
theorem tenTo_add (x : Int) (k : Nat) :
    tenTo (x + k) * tenTo (-x) = 10 ^ k * (tenTo x * tenTo (-(x + k))) := by
  simp only [tenTo_eq, ← Nat.pow_add]
  congr 1
  omega

/-! ## Decimals that read back -/

/-- Whether a decimal lies among the reals that round to a magnitude. -/
def IsNear (units : Nat) (d : Digits) : Prop :=
  Near (d.digits * (unitsPerOne * tenTo d.exponent)) (tenTo (-d.exponent)) units

theorem below_eq {units : Nat} (hunits : Fits units) :
    (if 0 < lowBits units && units == 2 ^ (52 + lowBits units) then 2 ^ lowBits units
      else 2 * 2 ^ lowBits units) =
        reach (significand units) (lowBits units) * 2 ^ lowBits units := by
  have hmul := hunits.significand_mul
  have hpower : units = 2 ^ (52 + lowBits units) ↔ significand units = 2 ^ 52 := by
    rw [Nat.pow_add]
    constructor
    · intro h
      exact Nat.mul_right_cancel (Nat.two_pow_pos _) (hmul.trans h)
    · intro h
      rw [← h, hmul]
  unfold reach
  simp only [Bool.and_eq_true, decide_eq_true_eq, beq_iff_eq, hpower]
  split
  · rw [Nat.one_mul]
  · rfl

theorem readsBack_iff {units : Nat} (hpos : 0 < units) (hunits : Fits units) (d : Digits) :
    readsBack units d ↔ IsNear units d := by
  have hmul := hunits.significand_mul
  unfold readsBack IsNear Near
  simp only [Nat.one_shiftLeft, Nat.shiftRight_eq_div_pow]
  rw [below_eq hunits, ← significand]
  have hreach := reach_le (significand units) (lowBits units)
  have hsignificand := significand_pos hpos hunits
  generalize reach (significand units) (lowBits units) = r at *
  generalize significand units = s at *
  generalize 2 ^ lowBits units = gap at *
  generalize tenTo (-d.exponent) = t
  generalize unitsPerOne * tenTo d.exponent = u
  have hroom : r * gap * t ≤ 4 * units * t := by
    refine Nat.mul_le_mul_right t ?_
    have hgap : 1 * gap ≤ s * gap := Nat.mul_le_mul_right gap hsignificand
    have htwo := Nat.mul_le_mul_right gap hreach
    omega
  have hmiddle : 4 * (s * (t * gap)) = 4 * units * t := by
    rw [← hmul]
    ring
  have hbelow : r * (t * gap) = r * gap * t := by ring
  have habove : 2 * (t * gap) = 2 * gap * t := by ring
  rw [hmiddle, hbelow, habove, ← Nat.mul_assoc 4 d.digits, Nat.sub_mul, Nat.add_mul]
  generalize 4 * units * t = middle at *
  generalize r * gap * t = below at *
  generalize 2 * gap * t = above at *
  generalize 4 * d.digits * u = point at *
  by_cases heven : s % 2 = 0
  · simp only [heven, beq_self_eq_true, if_true, Bool.and_eq_true, decide_eq_true_eq, true_or,
      and_true]
    omega
  · have hodd : (s % 2 == 0) = false := beq_eq_false_iff_ne.mpr heven
    simp only [hodd, Bool.false_eq_true, if_false, Bool.and_eq_true, decide_eq_true_eq, heven,
      false_or]
    omega

/-- Reading a decimal that is near gives the magnitude. -/
theorem ofDecimal_of_near {units : Nat} (hunits : Fits units) (hover : units < overflowUnits)
    {d : Digits} (hnear : IsNear units d) (hpos : 0 < d.digits) (hdigits : d.digits < 2 ^ 120)
    (hlow : -400 ≤ d.exponent) (hhigh : d.exponent ≤ 360) (negative : Bool) :
    ofDecimal negative d.digits d.exponent = .finite negative units := by
  have hlog : d.digits.log2 < 120 := (Nat.log2_lt hpos.ne').mpr hdigits
  have hratio (n m : Nat) (h : Near (n * unitsPerOne) m units) (hm : 0 < m) :
      ofRatio negative n m = .finite negative units := by
    rw [ofRatio, ofUnits, h.roundUnits_eq hm hunits, if_pos hover]
  unfold ofDecimal
  rw [if_neg hpos.ne', if_neg (by omega), if_neg (by omega)]
  unfold IsNear at hnear
  split
  · next hnonneg =>
    have hden : tenTo (-d.exponent) = 1 := tenTo_of_nonpos (by omega)
    have hnum : d.digits * Nat.pow 10 d.exponent.toNat * unitsPerOne =
        d.digits * (unitsPerOne * tenTo d.exponent) := by
      rw [Nat.mul_assoc, Nat.mul_comm unitsPerOne]
      rfl
    rw [hden, ← hnum] at hnear
    exact hratio _ _ hnear Nat.one_pos
  · next hneg =>
    have hten : tenTo d.exponent = 1 := tenTo_of_nonpos (by omega)
    rw [hten, Nat.mul_one] at hnear
    exact hratio _ _ hnear (tenTo_pos _)

/-! ## The scale -/

/-- Whether a magnitude is at least a power of ten. -/
def AtLeast (units : Nat) (x : Int) : Prop :=
  unitsPerOne * tenTo x ≤ units * tenTo (-x)

theorem raiseScale_spec {units : Nat} (steps : Nat) {x : Int} (hlow : AtLeast units (x - 1))
    (hhigh : ¬ AtLeast units (x + steps)) :
    AtLeast units (raiseScale units steps x - 1) ∧ ¬ AtLeast units (raiseScale units steps x) ∧
      x ≤ raiseScale units steps x ∧ raiseScale units steps x ≤ x + steps := by
  induction steps generalizing x with
  | zero =>
      rw [Int.natCast_zero, Int.add_zero] at hhigh ⊢
      exact ⟨hlow, hhigh, Int.le_refl x, Int.le_refl x⟩
  | succ steps ih =>
      rw [raiseScale, overGrid]
      dsimp only
      split
      · next hlt => exact ⟨hlow, Nat.not_le.mpr hlt, Int.le_refl x, by omega⟩
      · next hle =>
        have hnext : AtLeast units (x + 1 - 1) := by
          rw [Int.add_sub_cancel]
          exact Nat.not_lt.mp hle
        have hhigh' : ¬ AtLeast units (x + 1 + steps) := by
          rwa [Int.add_assoc, Int.add_comm 1]
        obtain ⟨h1, h2, h3, h4⟩ := ih hnext hhigh'
        exact ⟨h1, h2, by omega, by omega⟩

/-- The estimate of the scale, from the binary logarithm. -/
def scaleStart (log : Nat) : Int :=
  Int.fdiv (((log : Int) - 1074) * 30103) 100000 - 1

theorem scaleStart_bounds : ∀ log < 2098,
    unitsPerOne * tenTo (scaleStart log - 1) ≤ 2 ^ log * tenTo (-(scaleStart log - 1)) ∧
      2 ^ (log + 1) * tenTo (-(scaleStart log + 5)) ≤ unitsPerOne * tenTo (scaleStart log + 5) ∧
        -326 ≤ scaleStart log ∧ scaleStart log ≤ 308 := by
  decide +kernel

/-- A magnitude is below ten to the power of its scale, and not below a tenth of that. -/
theorem scale_spec {units : Nat} (hpos : 0 < units) (hover : units < overflowUnits) :
    AtLeast units (scale units - 1) ∧ ¬ AtLeast units (scale units) ∧ -326 ≤ scale units ∧
      scale units ≤ 313 := by
  obtain ⟨bits, hbits, hoverflow⟩ : ∃ bits, bits = 2098 ∧ overflowUnits = 2 ^ bits :=
    ⟨2098, rfl, by decide +kernel⟩
  have hlog : units.log2 < bits := (Nat.log2_lt hpos.ne').mpr (hover.trans_eq hoverflow)
  obtain ⟨hlow, hhigh, hmin, hmax⟩ := scaleStart_bounds _ (hlog.trans_eq hbits)
  have hself := Nat.log2_self_le hpos.ne'
  have hlt := Nat.lt_log2_self (n := units)
  have hstart : AtLeast units (scaleStart units.log2 - 1) :=
    hlow.trans (Nat.mul_le_mul_right _ hself)
  have hend : ¬ AtLeast units (scaleStart units.log2 + (5 : Nat)) :=
    Nat.not_le.mpr (Nat.lt_of_lt_of_le (Nat.mul_lt_mul_of_pos_right hlt (tenTo_pos _)) hhigh)
  obtain ⟨h1, h2, h3, h4⟩ := raiseScale_spec 5 hstart hend
  exact ⟨h1, h2, hmin.trans h3, h4.trans (by omega)⟩

/-- A power of ten is compared on a grid. -/
theorem atLeast_add_iff (units : Nat) (x : Int) (k : Nat) : AtLeast units (x + k) ↔
    10 ^ k * (unitsPerOne * tenTo x) ≤ units * tenTo (-x) := by
  have hten := tenTo_add x k
  have h1 := tenTo_pos (-x)
  have h2 := tenTo_pos (-(x + k))
  have hleft : unitsPerOne * tenTo (x + k) * tenTo (-x) =
      10 ^ k * (unitsPerOne * tenTo x) * tenTo (-(x + k)) := by
    rw [Nat.mul_assoc, hten]
    ring
  have hright : units * tenTo (-(x + k)) * tenTo (-x) = units * tenTo (-x) * tenTo (-(x + k)) := by
    ring
  rw [AtLeast, ← Nat.mul_le_mul_right_iff h1, hleft, hright, Nat.mul_le_mul_right_iff h2]

/-! ## The shortest digits -/

theorem roundDiv_cases (n d : Nat) : roundDiv n d = n / d ∨ roundDiv n d = n / d + 1 := by
  have hlow := div_le_roundDiv n d
  have hhigh := roundDiv_le_succ n d
  omega

theorem readsBack_of_withDigits? {units : Nat} {top : Int} {count : Nat} {d : Digits}
    (h : withDigits? units top count = some d) :
    readsBack units d ∧ d.exponent = top - count ∧
      d.digits ≤ units * tenTo (-(top - count)) / (unitsPerOne * tenTo (top - count)) + 1 := by
  unfold withDigits? overGrid at h
  dsimp only at h
  generalize units * tenTo (-(top - count)) = n at h ⊢
  generalize unitsPerOne * tenTo (top - count) = m at h ⊢
  split at h
  · next hfloor hceiling =>
    obtain rfl := Option.some.inj h
    refine ⟨?_, rfl, roundDiv_le_succ _ _⟩
    rcases roundDiv_cases n m with heq | heq
    · rw [heq]
      exact hfloor
    · rw [heq]
      exact hceiling
  · next hfloor _ =>
    obtain rfl := Option.some.inj h
    exact ⟨hfloor, rfl, Nat.le_succ _⟩
  · next _ hceiling =>
    obtain rfl := Option.some.inj h
    exact ⟨hceiling, rfl, Nat.le_refl _⟩
  · cases h

theorem withDigits?_ne_none {units : Nat} {top : Int} (hpos : 0 < units) (hunits : Fits units)
    (hlow : AtLeast units (top - 1)) : withDigits? units top 17 ≠ none := by
  have hgrid := (atLeast_add_iff units (top - (17 : Nat)) 16).mp (by
    rwa [show top - (17 : Nat) + (16 : Nat) = top - 1 by omega])
  have hd : 0 < unitsPerOne * tenTo (top - (17 : Nat)) :=
    Nat.mul_pos unitsPerOne_pos (tenTo_pos _)
  have hnear := near_div_or_succ hunits (tenTo_pos (-(top - (17 : Nat)))) hd hgrid
  unfold withDigits? overGrid
  dsimp only
  split
  · nofun
  · nofun
  · nofun
  · next hfloor hceiling =>
    rcases hnear with hnear | hnear
    · have hreads := (readsBack_iff hpos hunits ⟨_, _⟩).mpr hnear
      exact absurd (hfloor.symm.trans hreads) Bool.false_ne_true
    · have hreads := (readsBack_iff hpos hunits ⟨_, _⟩).mpr hnear
      exact absurd (hceiling.symm.trans hreads) Bool.false_ne_true

/-- Zeros at the end of the digits are the same as a greater exponent. -/
theorem isNear_shift (units digits : Nat) (x : Int) (k : Nat) :
    IsNear units ⟨digits * 10 ^ k, x⟩ ↔ IsNear units ⟨digits, x + k⟩ := by
  have hten := tenTo_add x k
  have h1 := tenTo_pos (-x)
  have h2 := tenTo_pos (-(x + k))
  have hnum : tenTo (-(x + k)) * (digits * 10 ^ k * (unitsPerOne * tenTo x)) =
      tenTo (-x) * (digits * (unitsPerOne * tenTo (x + k))) := by
    calc _ = digits * unitsPerOne * (10 ^ k * (tenTo x * tenTo (-(x + k)))) := by ring
      _ = _ := by
        rw [← hten]
        ring
  unfold IsNear
  dsimp only
  rw [← near_mul_iff h2, hnum, Nat.mul_comm (tenTo (-(x + k))), near_mul_iff h1]

theorem IsNear.pos {units : Nat} {d : Digits} (h : IsNear units d) (hpos : 0 < units)
    (hunits : Fits units) : 0 < d.digits := by
  obtain ⟨hlow, -, -⟩ := h
  refine Nat.pos_of_ne_zero fun hzero => ?_
  have hsignificand := significand_pos hpos hunits
  have hstep := Nat.mul_pos (tenTo_pos (-d.exponent)) (Nat.two_pow_pos (lowBits units))
  have hone := Nat.mul_le_mul_right (tenTo (-d.exponent) * 2 ^ lowBits units) hsignificand
  have htwo := Nat.mul_le_mul_right (tenTo (-d.exponent) * 2 ^ lowBits units)
    (reach_le (significand units) (lowBits units))
  rw [hzero, Nat.zero_mul] at hlow
  omega

/-- What is known of digits that are chosen for a magnitude. -/
structure IsChosen (units : Nat) (d : Digits) : Prop where
  near : IsNear units d
  pos : 0 < d.digits
  digits_le : d.digits ≤ 10 ^ 17
  low : -343 ≤ d.exponent

theorem IsChosen.dropZeros {units : Nat} {d : Digits} (h : IsChosen units d) (steps : Nat) :
    IsChosen units (d.dropZeros steps) ∧ (d.dropZeros steps).exponent ≤ d.exponent + steps := by
  induction steps generalizing d with
  | zero => exact ⟨h, (Int.add_zero _).ge⟩
  | succ steps ih =>
      rw [Digits.dropZeros]
      split
      · next hzero =>
        have hmul : d.digits / 10 * 10 = d.digits :=
          Nat.div_mul_cancel (Nat.dvd_of_mod_eq_zero hzero)
        have hpos := h.pos
        have hle := h.digits_le
        have hlow := h.low
        have hnear : IsNear units ⟨d.digits / 10, d.exponent + (1 : Nat)⟩ := by
          rw [← isNear_shift, Nat.pow_one, hmul]
          exact h.near
        obtain ⟨hchosen, hhigh⟩ := ih (d := ⟨d.digits / 10, d.exponent + 1⟩)
          ⟨hnear, by dsimp only; omega, by dsimp only; omega, by dsimp only; omega⟩
        refine ⟨hchosen, hhigh.trans ?_⟩
        dsimp only
        omega
      · exact ⟨h, by omega⟩

/-- **The digits that are chosen for a magnitude read back.** -/
theorem isChosen_shortest {units : Nat} (hpos : 0 < units) (hunits : Fits units)
    (hover : units < overflowUnits) :
    IsChosen units (shortest units) ∧ (shortest units).exponent ≤ 330 := by
  obtain ⟨hlow, hhigh, hmin, hmax⟩ := scale_spec hpos hover
  unfold shortest
  rw [if_neg hpos.ne']
  dsimp only
  split
  · next d hd =>
    obtain ⟨n, hn, hd⟩ := List.exists_of_findSome?_eq_some hd
    obtain ⟨hreads, hexponent, hdigits⟩ := readsBack_of_withDigits? hd
    have hcount := List.mem_range.mp hn
    have hchosen : IsChosen units d := by
      have hnear := (readsBack_iff hpos hunits d).mp hreads
      refine ⟨hnear, hnear.pos hpos hunits, hdigits.trans ?_, by omega⟩
      have hcut := (atLeast_add_iff units (scale units - (n + 1 : Nat)) (n + 1)).not.mp (by
        rwa [Int.sub_add_cancel])
      rw [Nat.mul_comm (10 ^ (n + 1))] at hcut
      refine (Nat.div_lt_of_lt_mul (Nat.not_le.mp hcut)).trans_le ?_
      exact Nat.pow_le_pow_right (by decide) (by omega)
    obtain ⟨hchosen, hle⟩ := hchosen.dropZeros 18
    exact ⟨hchosen, by omega⟩
  · next hnone =>
    have hseventeen := List.findSome?_eq_none_iff.mp hnone 16 (by decide)
    exact absurd hseventeen (withDigits?_ne_none hpos hunits hlow)

end Decimal

end Worksheet
