import Worksheet.Proofs.ShortIntegers
import Mathlib.Tactic.Linarith

/-!
# The rounded quotient of two integers

A quotient is rounded to the nearest magnitude of the format, and the distance is at most half a
unit of the last bit that is kept.  The integers around an exact quotient are magnitudes of the
format as long as they are small, so that rounding does not go beyond them.  It can come to one of
them: a quotient that is so close to an integer is rounded to it, unless the dividend is so small
that a whole divisor of it takes more bits than are dropped.
-/

namespace Worksheet.Binary64

/-! ## Half a unit of the last bit -/

/-- Rounding goes no further than half a unit up. -/
theorem two_mul_roundDiv_le (n : Nat) {d : Nat} (hd : 0 < d) :
    2 * (roundDiv n d * d) ≤ 2 * n + d := by
  have hdivmod := Nat.div_add_mod' n d
  have hmod := Nat.mod_lt n hd
  unfold roundDiv
  dsimp only
  split
  · omega
  · split
    · rw [Nat.add_mul, Nat.one_mul]
      omega
    · rcases Nat.mod_two_eq_zero_or_one (n / d) with hparity | hparity <;>
        rw [hparity, Nat.add_mul] <;> omega

/-- And no further than half a unit down. -/
theorem two_mul_le_roundDiv (n : Nat) {d : Nat} (hd : 0 < d) :
    2 * n ≤ 2 * (roundDiv n d * d) + d := by
  have hdivmod := Nat.div_add_mod' n d
  have hmod := Nat.mod_lt n hd
  unfold roundDiv
  dsimp only
  split
  · omega
  · split
    · rw [Nat.add_mul, Nat.one_mul]
      omega
    · rw [Nat.add_mul]
      omega

variable {n d units : Nat}

/-- A half goes to the even neighbour. -/
theorem roundDiv_of_half (h : 2 * (n % d) = d) : roundDiv n d = n / d + n / d % 2 := by
  unfold roundDiv
  dsimp only
  rw [h, if_neg (Nat.lt_irrefl d), if_neg (Nat.lt_irrefl d)]

theorem two_mul_roundUnits_le (n : Nat) (hd : 0 < d) :
    2 * (roundUnits n d * d) ≤ 2 * n + d * 2 ^ lowBits (n / d) := by
  have h := two_mul_roundDiv_le n (Nat.mul_pos hd (Nat.two_pow_pos (lowBits (n / d))))
  rw [roundUnits_eq, Nat.mul_assoc, Nat.mul_comm (2 ^ _) d]
  exact h

theorem two_mul_le_roundUnits (n : Nat) (hd : 0 < d) :
    2 * n ≤ 2 * (roundUnits n d * d) + d * 2 ^ lowBits (n / d) := by
  have h := two_mul_le_roundDiv n (Nat.mul_pos hd (Nat.two_pow_pos (lowBits (n / d))))
  rw [roundUnits_eq, Nat.mul_assoc, Nat.mul_comm (2 ^ _) d]
  exact h

/-- Where bits are dropped, all 53 are kept. -/
theorem two_pow_le_of_lowBits_pos (h : 0 < lowBits units) : 2 ^ (52 + lowBits units) ≤ units := by
  have hlog : units.log2 = 52 + lowBits units := by
    unfold lowBits at h ⊢
    omega
  have hne : units ≠ 0 := by
    rintro rfl
    exact absurd h (by decide)
  rw [← hlog]
  exact Nat.log2_self_le hne

/-- Where none are dropped, there are at most 53. -/
theorem lt_two_pow_of_lowBits_eq_zero (h : lowBits units = 0) : units < 2 ^ 53 := by
  have hlt := div_two_pow_lowBits_lt units
  rwa [h, Nat.pow_zero, Nat.div_one] at hlt

/-! ## Rounding keeps the order -/

/-- Rounding does not fall below a magnitude of the format. -/
theorem le_roundUnits (hunits : Fits units) (hd : 0 < d) (h : units * d ≤ n) :
    units ≤ roundUnits n d := by
  obtain ⟨significand, low, hs, rfl⟩ := hunits
  have hquotient : significand * 2 ^ low ≤ n / d := (Nat.le_div_iff_mul_le hd).mpr h
  rw [roundUnits_eq]
  rcases le_or_gt (lowBits (n / d)) low with hle | hlt
  · -- in units of the last bit that is kept, the bound is a whole number
    obtain ⟨k, hk⟩ := Nat.exists_eq_add_of_le hle
    have hwhole : significand * 2 ^ k ≤ n / (d * 2 ^ lowBits (n / d)) := by
      rw [← Nat.div_div_eq_div_mul, Nat.le_div_iff_mul_le (Nat.two_pow_pos _)]
      refine Nat.le_trans (Nat.le_of_eq ?_) hquotient
      rw [hk, Nat.pow_add]
      ring
    calc significand * 2 ^ low
        = significand * 2 ^ k * 2 ^ lowBits (n / d) := by rw [hk, Nat.pow_add]; ring
      _ ≤ _ := Nat.mul_le_mul_right _ (hwhole.trans (div_le_roundDiv _ _))
  · -- the bound has fewer bits than the quotient
    have hkept : 2 ^ 52 ≤ n / (d * 2 ^ lowBits (n / d)) := by
      rw [← Nat.div_div_eq_div_mul, Nat.le_div_iff_mul_le (Nat.two_pow_pos _), ← Nat.pow_add]
      exact two_pow_le_of_lowBits_pos (Nat.zero_lt_of_lt hlt)
    calc significand * 2 ^ low
        ≤ 2 ^ 53 * 2 ^ low := Nat.mul_le_mul_right _ hs.le
      _ = 2 ^ 52 * 2 ^ (low + 1) := by ring
      _ ≤ 2 ^ 52 * 2 ^ lowBits (n / d) := Nat.mul_le_mul_left _ (Nat.pow_le_pow_right two_pos hlt)
      _ ≤ _ := Nat.mul_le_mul_right _ (hkept.trans (div_le_roundDiv _ _))

/-- A magnitude of the format is not changed. -/
theorem roundUnits_mul (hunits : Fits units) (hd : 0 < d) : roundUnits (units * d) d = units :=
  Nat.le_antisymm (roundUnits_le hunits hd le_rfl) (le_roundUnits hunits hd le_rfl)

/-! ## Comparing with an integer -/

theorem unitsPerOne_eq : unitsPerOne = 2 ^ 1074 := by
  decide +kernel

variable {k m : Nat}

/-- Small integers are magnitudes of the format. -/
theorem fits_mul_unitsPerOne (h : k ≤ 2 ^ 53) : Fits (k * unitsPerOne) := by
  rw [unitsPerOne_eq]
  exact Fits.of_le h 1074

theorem roundUnits_le_mul (hk : k ≤ 2 ^ 53) (hd : 0 < d) (h : m ≤ k * d) :
    roundUnits (m * unitsPerOne) d ≤ k * unitsPerOne := by
  refine roundUnits_le (fits_mul_unitsPerOne hk) hd ?_
  rw [Nat.mul_right_comm]
  exact Nat.mul_le_mul_right _ h

theorem mul_le_roundUnits (hk : k ≤ 2 ^ 53) (hd : 0 < d) (h : k * d ≤ m) :
    k * unitsPerOne ≤ roundUnits (m * unitsPerOne) d := by
  refine le_roundUnits (fits_mul_unitsPerOne hk) hd ?_
  rw [Nat.mul_right_comm]
  exact Nat.mul_le_mul_right _ h

/-- A small dividend has a small quotient. -/
theorem roundUnits_le_small (hd : 0 < d) (hm : m ≤ 2 ^ 53) :
    roundUnits (m * unitsPerOne) d ≤ 2 ^ 53 * unitsPerOne :=
  roundUnits_le_mul le_rfl hd (hm.trans (Nat.le_mul_of_pos_right _ hd))

/-- A quotient vanishes if it is half a unit or less. -/
theorem roundUnits_eq_zero_iff (hd : 0 < d) : roundUnits n d = 0 ↔ 2 * n ≤ d := by
  rcases Nat.lt_or_ge n d with hlt | hge
  · have hunits : roundUnits n d = roundDiv n d := by
      have hlow : lowBits 0 = 0 := rfl
      rw [roundUnits_eq, Nat.div_eq_of_lt hlt, hlow, Nat.pow_zero, Nat.mul_one, Nat.mul_one]
    rw [hunits]
    unfold roundDiv
    rw [Nat.div_eq_of_lt hlt, Nat.mod_eq_of_lt hlt]
    dsimp only
    split
    · omega
    · split <;> omega
  · have hpos := roundUnits_pos hd hge
    omega

theorem roundUnits_mul_eq_zero_iff (hd : 0 < d) :
    roundUnits (m * unitsPerOne) d = 0 ↔ 2 ^ 1075 * m ≤ d := by
  have htwo : 2 * (m * unitsPerOne) = 2 ^ 1075 * m := by
    rw [unitsPerOne_eq, pow_succ' 2 1074, Nat.mul_assoc, Nat.mul_comm m]
  rw [roundUnits_eq_zero_iff hd, htwo]

/-- A small dividend has a quotient that is rounded to a positive integer only if it is that
integer. -/
theorem eq_of_roundUnits_eq (hd : 0 < d) (hm : m ≤ 2 ^ 53) (hk : 0 < k)
    (h : roundUnits (m * unitsPerOne) d = k * unitsPerOne) : m = k * d := by
  by_contra hne
  have hup := two_mul_roundUnits_le (m * unitsPerOne) hd
  have hdown := two_mul_le_roundUnits (m * unitsPerOne) hd
  rw [h, Nat.mul_right_comm] at hup hdown
  generalize hlow : lowBits (m * unitsPerOne / d) = low at hup hdown
  -- the integer is missed by a whole divisor at least, and rounding goes half a unit
  have hfar : 2 * unitsPerOne ≤ d * 2 ^ low := by
    rcases Nat.lt_or_gt_of_ne hne with hlt | hgt
    · have hstep := Nat.mul_le_mul_right unitsPerOne hlt
      rw [Nat.succ_mul] at hstep
      omega
    · have hstep := Nat.mul_le_mul_right unitsPerOne hgt
      rw [Nat.succ_mul] at hstep
      omega
  have hdropped : 0 < lowBits (m * unitsPerOne / d) := by
    refine Nat.pos_of_ne_zero fun hzero => ?_
    have hlt := (Nat.div_lt_iff_lt_mul hd).mp (lt_two_pow_of_lowBits_eq_zero hzero)
    have hle := roundUnits_le (Fits.of_le le_rfl 0) hd (hlt.le.trans_eq (by ring))
    rw [h] at hle
    have hone : 2 ^ 53 * 2 ^ 0 < unitsPerOne := by decide +kernel
    have hunits := Nat.le_mul_of_pos_left unitsPerOne hk
    omega
  -- so the quotient takes all bits that are kept, and is a magnitude of the format itself
  have hbits := (Nat.le_div_iff_mul_le hd).mp (two_pow_le_of_lowBits_pos hdropped)
  have hexact : m * unitsPerOne = 2 ^ 52 * 2 ^ low * d := by
    refine Nat.le_antisymm ?_ ?_
    · calc m * unitsPerOne ≤ 2 ^ 53 * unitsPerOne := Nat.mul_le_mul_right _ hm
        _ = 2 ^ 52 * (2 * unitsPerOne) := by ring
        _ ≤ 2 ^ 52 * (d * 2 ^ low) := Nat.mul_le_mul_left _ hfar
        _ = 2 ^ 52 * 2 ^ low * d := by ring
    · rwa [hlow, Nat.pow_add] at hbits
  rw [hexact, roundUnits_mul (Fits.of_le (by decide) low) hd] at h
  refine hne (Nat.eq_of_mul_eq_mul_right unitsPerOne_pos ?_)
  rw [hexact, h]
  ring

/-- Rounding the quotient of a small dividend does not change which integers it reaches. -/
theorem mul_le_roundUnits_iff (hd : 0 < d) (hm : m ≤ 2 ^ 53) :
    k * unitsPerOne ≤ roundUnits (m * unitsPerOne) d ↔ k * d ≤ m := by
  constructor
  · intro h
    by_contra hlt
    have hk : k ≤ 2 ^ 53 :=
      Nat.le_of_mul_le_mul_right (h.trans (roundUnits_le_small hd hm)) unitsPerOne_pos
    have hpos : 0 < k := by
      refine Nat.pos_of_ne_zero fun hzero => hlt ?_
      rw [hzero, Nat.zero_mul]
      exact Nat.zero_le m
    have hle := roundUnits_le_mul hk hd (Nat.le_of_not_le hlt)
    exact hlt (eq_of_roundUnits_eq hd hm hpos (Nat.le_antisymm hle h)).ge
  · intro h
    exact mul_le_roundUnits ((Nat.le_mul_of_pos_right k hd).trans (h.trans hm)) hd h

/-- Nor does it change which integers it does not exceed, as long as it does not vanish. -/
theorem roundUnits_le_mul_iff (hd : 0 < d) (hm : m ≤ 2 ^ 53)
    (hk : 0 < k ∨ ¬ (0 < m ∧ 2 ^ 1075 * m ≤ d)) :
    roundUnits (m * unitsPerOne) d ≤ k * unitsPerOne ↔ m ≤ k * d := by
  constructor
  · intro h
    by_contra hlt
    have hkm : k * d < m := Nat.lt_of_not_le hlt
    have hge := (mul_le_roundUnits_iff hd hm).mpr hkm.le
    rcases Nat.eq_zero_or_pos k with rfl | hpos
    · rw [Nat.zero_mul] at h hkm
      have hvanishes := (roundUnits_mul_eq_zero_iff hd).mp (Nat.le_zero.mp h)
      exact (hk.resolve_left (Nat.lt_irrefl 0)) ⟨hkm, hvanishes⟩
    · exact hlt (eq_of_roundUnits_eq hd hm hpos (Nat.le_antisymm h hge)).le
  · intro h
    rcases Nat.le_total k (2 ^ 53) with hle | hge
    · exact roundUnits_le_mul hle hd h
    · exact (roundUnits_le_small hd hm).trans (Nat.mul_le_mul_right _ hge)

/-! ## Quotients beyond the format -/

/-- The greatest magnitude of the format below a power of two has 53 bits that are set. -/
theorem Fits.le_of_lt {top : Nat} (h : Fits units) (hlt : units < 2 ^ (53 + top)) :
    units ≤ (2 ^ 53 - 1) * 2 ^ top := by
  obtain ⟨significand, low, hs, rfl⟩ := h
  rcases Nat.le_total top low with hle | hge
  · obtain ⟨k, rfl⟩ := Nat.exists_eq_add_of_le hle
    have hsplit : significand * 2 ^ (top + k) = significand * 2 ^ k * 2 ^ top := by ring
    rw [hsplit] at hlt ⊢
    have hwhole : significand * 2 ^ k < 2 ^ 53 := by
      refine Nat.lt_of_mul_lt_mul_right (hlt.trans_eq ?_)
      rw [← Nat.pow_add]
    exact Nat.mul_le_mul_right _ (Nat.le_sub_one_of_lt hwhole)
  · exact Nat.mul_le_mul (Nat.le_sub_one_of_lt hs) (Nat.pow_le_pow_right two_pos hge)

variable {t : Nat}

/-- The point half way from that magnitude to the power of two is rounded to the power of two, which
is the even one. -/
theorem roundUnits_halfway (hd : 0 < d) :
    roundUnits ((2 ^ 54 - 1) * 2 ^ t * d) d = 2 ^ (54 + t) := by
  have hpos := Nat.two_pow_pos t
  have hlow : lowBits ((2 ^ 54 - 1) * 2 ^ t) = t + 1 := by
    have hlog : ((2 ^ 54 - 1) * 2 ^ t).log2 = 53 + t := by
      rw [Nat.log2_eq_iff (by omega), Nat.add_right_comm, Nat.pow_add, Nat.pow_add]
      omega
    unfold lowBits
    omega
  have hquotient : (2 ^ 54 - 1) * 2 ^ t / 2 ^ (t + 1) = 2 ^ 53 - 1 := by
    rw [pow_succ' 2 t, Nat.mul_div_mul_right _ _ hpos]
    rfl
  have hrest : (2 ^ 54 - 1) * 2 ^ t % 2 ^ (t + 1) = 2 ^ t := by
    rw [pow_succ' 2 t, Nat.mul_mod_mul_right]
    omega
  have hhalf : 2 * (d * ((2 ^ 54 - 1) * 2 ^ t) % (d * 2 ^ (t + 1))) = d * 2 ^ (t + 1) := by
    rw [Nat.mul_mod_mul_left, hrest, pow_succ' 2 t, Nat.mul_left_comm]
  rw [roundUnits_eq, Nat.mul_div_cancel _ hd, hlow, Nat.mul_comm _ d, roundDiv_of_half hhalf,
    Nat.mul_div_mul_left _ _ hd, hquotient, pow_add 2 54, pow_succ' 2 t]
  omega

/-- Quotients below that point stay below the power of two. -/
theorem roundUnits_lt_two_pow_iff (hd : 0 < d) :
    roundUnits n d < 2 ^ (54 + t) ↔ n < (2 ^ 54 - 1) * 2 ^ t * d := by
  -- half a unit takes the greatest magnitude to the point, and the point to the power of two
  have hpoint : 2 * ((2 ^ 54 - 1) * 2 ^ t * d) + d * 2 ^ (t + 1) = 2 * (2 ^ (54 + t) * d) := by
    rw [pow_add 2 54, pow_succ' 2 t]
    norm_num
    ring
  have hgreatest : 2 * ((2 ^ 53 - 1) * 2 ^ (t + 1) * d) + d * 2 ^ (t + 1) =
      2 * ((2 ^ 54 - 1) * 2 ^ t * d) := by
    rw [pow_succ' 2 t]
    norm_num
    ring
  have hup := two_mul_roundUnits_le n hd
  have hdown := two_mul_le_roundUnits n hd
  -- below the power of two there is a last bit that is kept
  have hlow : n / d < 2 ^ (54 + t) → d * 2 ^ lowBits (n / d) ≤ d * 2 ^ (t + 1) := by
    intro hlt
    refine Nat.mul_le_mul_left d (Nat.pow_le_pow_right two_pos ?_)
    rcases Nat.eq_zero_or_pos (n / d) with hzero | hpos
    · rw [hzero]
      exact Nat.zero_le _
    · have hlog := (Nat.log2_lt hpos.ne').mpr hlt
      unfold lowBits
      omega
  constructor
  · intro h
    by_contra hge
    rcases (Nat.le_of_not_lt hge).lt_or_eq with hlt | heq
    · have hsmall : n / d < 2 ^ (54 + t) := by
        refine (Nat.div_lt_iff_lt_mul hd).mpr (Nat.lt_of_not_le fun hle => h.not_ge ?_)
        exact le_roundUnits ⟨1, 54 + t, by decide, (Nat.one_mul _).symm⟩ hd hle
      have htop : 54 + t = 53 + (t + 1) := by omega
      have hunits := Nat.mul_le_mul_right d ((fits_roundUnits n d).le_of_lt (htop ▸ h))
      have hbits := hlow hsmall
      omega
    · rw [← heq, roundUnits_halfway hd] at h
      exact Nat.lt_irrefl _ h
  · intro h
    by_contra hge
    have hunits := Nat.mul_le_mul_right d (Nat.le_of_not_lt hge)
    have hbelow : n < 2 ^ (54 + t) * d := by omega
    have hbits := hlow ((Nat.div_lt_iff_lt_mul hd).mpr hbelow)
    omega

end Worksheet.Binary64
