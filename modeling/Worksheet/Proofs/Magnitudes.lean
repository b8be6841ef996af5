import Worksheet.Number
import Mathlib.Tactic.Ring

/-!
# Magnitudes of binary64 numbers

A number of the format has at most 53 significant bits and lies below the magnitude from which on
numbers are infinite.  Rounding comes to such a magnitude and does not pass one.  So what arithmetic
returns is a number of the format whatever it is given, and a quotient or a remainder that is no
greater than a finite operand is finite.
-/

namespace Worksheet

namespace Binary64

/-! ## Significant bits -/

/-- A magnitude with at most 53 significant bits. -/
def Fits (units : Nat) : Prop :=
  ∃ significand low, significand < 2 ^ 53 ∧ units = significand * 2 ^ low

theorem Fits.zero : Fits 0 :=
  ⟨0, 0, by decide, rfl⟩

/-- The 53 bits can be all set but for a last one that is carried over. -/
theorem Fits.of_le {significand : Nat} (h : significand ≤ 2 ^ 53) (low : Nat) :
    Fits (significand * 2 ^ low) := by
  rcases h.lt_or_eq with h | rfl
  · exact ⟨significand, low, h, rfl⟩
  · exact ⟨2 ^ 52, low + 1, by decide, by ring⟩

/-- The remainder of two magnitudes needs no more bits than the one with the lower last bit. -/
theorem Fits.mod {m n : Nat} (hm : Fits m) (hn : Fits n) (hpos : 0 < n) : Fits (m % n) := by
  obtain ⟨a, low, ha, rfl⟩ := hm
  obtain ⟨b, low', hb, rfl⟩ := hn
  -- both are multiples of the lower last bit, and the remainder is taken in units of it
  rcases le_total low low' with h | h
  · obtain ⟨k, rfl⟩ := Nat.exists_eq_add_of_le h
    rw [show b * 2 ^ (low + k) = b * 2 ^ k * 2 ^ low by ring, Nat.mul_mod_mul_right]
    exact ⟨_, low, (Nat.mod_le _ _).trans_lt ha, rfl⟩
  · obtain ⟨k, rfl⟩ := Nat.exists_eq_add_of_le h
    rw [show a * 2 ^ (low' + k) = a * 2 ^ k * 2 ^ low' by ring, Nat.mul_mod_mul_right]
    exact ⟨_, low', (Nat.mod_lt _ (Nat.pos_of_mul_pos_right hpos)).trans hb, rfl⟩

/-! ## Rounding -/

theorem div_le_roundDiv (n d : Nat) : n / d ≤ roundDiv n d := by
  unfold roundDiv
  dsimp only
  split
  · exact le_rfl
  · split
    · exact Nat.le_succ _
    · exact Nat.le_add_right _ _

theorem roundDiv_le_succ (n d : Nat) : roundDiv n d ≤ n / d + 1 := by
  unfold roundDiv
  dsimp only
  split
  · exact Nat.le_succ _
  · split
    · exact le_rfl
    · exact Nat.add_le_add_left (Nat.le_of_lt_succ (Nat.mod_lt _ two_pos)) _

/-- Rounding does not pass a whole number. -/
theorem roundDiv_le {n d k : Nat} (hd : 0 < d) (h : n ≤ k * d) : roundDiv n d ≤ k := by
  -- if the quotient is the bound already, nothing is left to round up
  rcases (Nat.div_le_of_le_mul (Nat.mul_comm k d ▸ h)).lt_or_eq with hlt | rfl
  · exact (roundDiv_le_succ n d).trans hlt
  · have hmod : n % d = 0 := by
      have := Nat.div_add_mod n d
      have := Nat.mul_comm d (n / d)
      omega
    unfold roundDiv
    simp only [hmod, Nat.mul_zero, hd, if_true, le_refl]

/-- Without its low bits a magnitude has at most 53. -/
theorem div_two_pow_lowBits_lt (units : Nat) : units / 2 ^ lowBits units < 2 ^ 53 := by
  rw [Nat.div_lt_iff_lt_mul (Nat.two_pow_pos _), ← Nat.pow_add]
  refine Nat.lt_log2_self.trans_le (Nat.pow_le_pow_right two_pos ?_)
  unfold lowBits
  omega

/-- A magnitude with at most 53 significant bits has its last bit where they end, or above. -/
theorem lowBits_le {significand low units : Nat} (hs : significand < 2 ^ 53)
    (h : units ≤ significand * 2 ^ low) : lowBits units ≤ low := by
  rcases Nat.eq_zero_or_pos units with rfl | hpos
  · exact Nat.zero_le _
  have hlt : units < 2 ^ (53 + low) := by
    rw [Nat.pow_add]
    exact h.trans_lt (Nat.mul_lt_mul_of_pos_right hs (Nat.two_pow_pos low))
  have := (Nat.log2_lt hpos.ne').mpr hlt
  unfold lowBits
  omega

theorem roundUnits_eq (n d : Nat) : roundUnits n d =
    roundDiv n (d * 2 ^ lowBits (n / d)) * 2 ^ lowBits (n / d) := by
  simp only [roundUnits, Nat.shiftLeft_eq]

theorem fits_roundUnits (n d : Nat) : Fits (roundUnits n d) := by
  rw [roundUnits_eq]
  refine Fits.of_le ((roundDiv_le_succ _ _).trans ?_) _
  rw [← Nat.div_div_eq_div_mul]
  exact div_two_pow_lowBits_lt _

/-- Rounding does not pass a magnitude of the format. -/
theorem roundUnits_le {n d units : Nat} (hunits : Fits units) (hd : 0 < d) (h : n ≤ units * d) :
    roundUnits n d ≤ units := by
  obtain ⟨significand, low, hs, rfl⟩ := hunits
  have hlow := lowBits_le hs (Nat.div_le_of_le_mul (Nat.mul_comm _ d ▸ h))
  obtain ⟨k, hk⟩ := Nat.exists_eq_add_of_le hlow
  -- in units of the last bit that is kept, the bound is a whole number
  rw [roundUnits_eq]
  generalize lowBits (n / d) = l at hk
  subst hk
  calc roundDiv n (d * 2 ^ l) * 2 ^ l
      ≤ significand * 2 ^ k * 2 ^ l := Nat.mul_le_mul_right _ <|
        roundDiv_le (Nat.mul_pos hd (Nat.two_pow_pos l)) (h.trans_eq (by ring))
    _ = significand * 2 ^ (l + k) := by ring

/-- What is at least one unit does not vanish. -/
theorem roundUnits_pos {n d : Nat} (hd : 0 < d) (h : d ≤ n) : 0 < roundUnits n d := by
  have hq : 0 < n / d := Nat.div_pos h hd
  have hlow : 2 ^ lowBits (n / d) ≤ n / d :=
    (Nat.pow_le_pow_right two_pos (Nat.sub_le _ _)).trans (Nat.log2_self_le hq.ne')
  rw [roundUnits_eq]
  refine Nat.mul_pos ((Nat.div_pos ?_ (Nat.mul_pos hd (Nat.two_pow_pos _))).trans_le
    (div_le_roundDiv _ _)) (Nat.two_pow_pos _)
  exact (Nat.mul_le_mul_left d hlow).trans (Nat.mul_div_le n d)

/-! ## Numbers of the format -/

theorem two_pow_le_overflowUnits {k : Nat} (h : k ≤ 2098) : 2 ^ k ≤ overflowUnits :=
  (Nat.pow_le_pow_right two_pos h).trans (by decide +kernel)

theorem unitsPerOne_pos : 0 < unitsPerOne := by
  decide +kernel

/-- What the format can hold: a finite number has at most 53 significant bits and is below the
magnitudes that are infinite. -/
inductive Representable : Binary64 → Prop where
  | finite (negative : Bool) {units : Nat} :
      Fits units → units < overflowUnits → Representable (.finite negative units)
  | infinite (negative : Bool) : Representable (.infinite negative)
  | nan : Representable .nan

theorem Representable.neg {x : Binary64} (h : x.Representable) : (-x).Representable := by
  cases h with
  | finite s hfits hlt => exact .finite (!s) hfits hlt
  | infinite s => exact .infinite (!s)
  | nan => exact .nan

theorem Representable.abs {x : Binary64} (h : x.Representable) : x.abs.Representable := by
  cases h with
  | finite s hfits hlt => exact .finite false hfits hlt
  | infinite s => exact .infinite false
  | nan => exact .nan

theorem isFinite_neg (x : Binary64) : (-x).isFinite = x.isFinite := by
  cases x <;> rfl

theorem isFinite_abs (x : Binary64) : x.abs.isFinite = x.isFinite := by
  cases x <;> rfl

theorem representable_zero (s : Bool) : (finite s 0).Representable :=
  .finite s .zero (two_pow_le_overflowUnits (Nat.zero_le _))

theorem representable_ofUnits (s : Bool) (n d : Nat) : (ofUnits s n d).Representable := by
  unfold ofUnits
  dsimp only
  split
  · next hlt => exact .finite s (fits_roundUnits n d) hlt
  · exact .infinite s

/-- What is no greater than a finite number is not rounded to an infinite one. -/
theorem isFinite_ofUnits {s t : Bool} {n d units : Nat} (h : (finite t units).Representable)
    (hd : 0 < d) (hle : n ≤ units * d) : (ofUnits s n d).isFinite := by
  cases h with
  | finite _ hfits hlt =>
      simp only [ofUnits, if_pos ((roundUnits_le hfits hd hle).trans_lt hlt), isFinite]

/-- What is at least one unit is not rounded to zero. -/
theorem isZero_ofUnits {s : Bool} {n d : Nat} (hd : 0 < d) (h : d ≤ n) :
    (ofUnits s n d).isZero = false := by
  have hpos := roundUnits_pos hd h
  simp only [ofUnits]
  split
  · simp only [isZero, beq_eq_false_iff_ne]
    exact hpos.ne'
  · rfl

theorem representable_ofRatio (s : Bool) (n d : Nat) : (ofRatio s n d).Representable :=
  representable_ofUnits s _ d

theorem representable_ofInt (i : Int) : (ofInt i).Representable :=
  representable_ofRatio _ _ 1

theorem isZero_ofInt {i : Int} (h : i ≠ 0) : (ofInt i).isZero = false := by
  unfold ofInt ofRatio
  exact isZero_ofUnits one_pos (Nat.mul_pos (Int.natAbs_pos.mpr h) unitsPerOne_pos)

theorem representable_ofDecimal (s : Bool) (digits : Nat) (exponent : Int) :
    (ofDecimal s digits exponent).Representable := by
  unfold ofDecimal
  dsimp only
  split_ifs
  · exact representable_zero s
  · exact .infinite s
  · exact representable_zero s
  · exact representable_ofRatio ..
  · exact representable_ofRatio ..

/-- A decimal is never rounded to no number. -/
theorem ofDecimal_ne_nan (s : Bool) (digits : Nat) (exponent : Int) :
    ofDecimal s digits exponent ≠ nan := by
  simp only [ofDecimal, ofRatio, ofUnits]
  split_ifs <;> nofun

/-! ## Arithmetic -/

theorem representable_add (x y : Binary64) : (x + y).Representable := by
  show (add x y).Representable
  unfold add
  split
  · dsimp only
    split
    · exact representable_zero _
    · exact representable_ofUnits ..
  · split
    · exact .infinite _
    · exact .nan
  · exact .infinite _
  · exact .infinite _
  · exact .nan
  · exact .nan

theorem representable_sub (x y : Binary64) : (x - y).Representable :=
  representable_add x (-y)

theorem representable_mul (x y : Binary64) : (x * y).Representable := by
  show (mul x y).Representable
  unfold mul
  split
  · exact representable_ofUnits ..
  · exact .infinite _
  · split
    · exact .nan
    · exact .infinite _
  · split
    · exact .nan
    · exact .infinite _
  · exact .nan
  · exact .nan

theorem representable_div (x y : Binary64) : (x / y).Representable := by
  show (div x y).Representable
  unfold div
  split
  · split
    · split
      · exact .nan
      · exact .infinite _
    · exact representable_ofRatio ..
  · exact .nan
  · exact .infinite _
  · exact representable_zero _
  · exact .nan
  · exact .nan

theorem representable_mod {x y : Binary64} (hx : x.Representable) (hy : y.Representable) :
    (x % y).Representable := by
  show (mod x y).Representable
  unfold mod
  split
  · next s m t n =>
      cases hx with
      | finite _ hm hlt =>
      cases hy with
      | finite _ hn _ =>
      split_ifs with hzero
      · exact .nan
      · exact representable_zero t
      · exact .finite s (hm.mod hn (Nat.pos_of_ne_zero hzero)) ((Nat.mod_le m n).trans_lt hlt)
      · exact representable_add (.finite s (m % n)) (.finite t n)
  · next s m t =>
      cases hx with
      | finite _ hm hlt =>
      split
      · exact .finite t hm hlt
      · exact .infinite t
  · exact .nan

/-- A hundredth of a finite number is finite. -/
theorem isFinite_hundredth {x : Binary64} (hx : x.isFinite = true) (h : x.Representable) :
    (x / ofInt 100).isFinite = true := by
  have hhundred : ofInt 100 = finite false (100 * unitsPerOne) := by decide +kernel
  have hpos : 0 < 100 * unitsPerOne := Nat.mul_pos (by decide) unitsPerOne_pos
  cases x with
  | finite s m =>
      rw [hhundred]
      show (div (finite s m) (finite false (100 * unitsPerOne))).isFinite = true
      simp only [div, if_neg hpos.ne', ofRatio]
      exact isFinite_ofUnits h hpos
        (Nat.mul_le_mul_left m (Nat.le_mul_of_pos_left unitsPerOne (by decide)))
  | infinite s => cases hx
  | nan => cases hx

/-- The remainder of a finite number by one other than zero is finite. -/
theorem isFinite_mod {x y : Binary64} (hx : x.isFinite = true) (hy : y.isFinite = true)
    (hzero : y.isZero = false) (h : y.Representable) : (x % y).isFinite = true := by
  cases x with
  | infinite s => cases hx
  | nan => cases hx
  | finite s m =>
  cases y with
  | infinite t => cases hy
  | nan => cases hy
  | finite t n =>
  have hn : n ≠ 0 := by simpa [isZero] using hzero
  show (mod (finite s m) (finite t n)).isFinite = true
  simp only [mod, if_neg hn]
  split_ifs with hmod hsame
  · rfl
  · rfl
  · have hlt : m % n < n := Nat.mod_lt _ (Nat.pos_of_ne_zero hn)
    simp only [add]
    split
    · rfl
    · refine isFinite_ofUnits h one_pos ?_
      -- The signs differ, so the remainder toward zero is taken away from the divisor.
      cases s <;> cases t <;> simp only [signedUnits, beq_self_eq_true, not_true] at hsame ⊢ <;>
        simp <;> omega

/-! ## Bit patterns -/

theorem representable_ofBits (bits : UInt64) : (ofBits bits).Representable := by
  have hfraction : (bits &&& 0xfffffffffffff).toNat < 2 ^ 52 := by
    rw [UInt64.toNat_and]
    exact Nat.and_lt_two_pow _ (by decide)
  have hexponent : ((bits >>> 52) &&& 0x7ff).toNat < 2 ^ 11 := by
    rw [UInt64.toNat_and]
    exact Nat.and_lt_two_pow _ (by decide)
  unfold ofBits
  dsimp only
  generalize (bits &&& 0xfffffffffffff).toNat = fraction at hfraction
  generalize ((bits >>> 52) &&& 0x7ff).toNat = exponent at hexponent
  split_ifs with htop hzero hbottom
  · exact .infinite _
  · exact .nan
  · exact .finite _ ⟨fraction, 0, by omega, by simp⟩
      (hfraction.trans_le (two_pow_le_overflowUnits (by decide)))
  · have hsignificand : Nat.pow 2 52 + fraction < 2 ^ 53 := by
      simp only [Nat.pow_eq]
      omega
    rw [Nat.shiftLeft_eq]
    refine .finite _ ⟨_, _, hsignificand, rfl⟩ ?_
    calc (Nat.pow 2 52 + fraction) * 2 ^ (exponent - 1)
        < 2 ^ 53 * 2 ^ (exponent - 1) :=
          Nat.mul_lt_mul_of_pos_right hsignificand (Nat.two_pow_pos _)
      _ = 2 ^ (53 + (exponent - 1)) := (Nat.pow_add ..).symm
      _ ≤ overflowUnits := two_pow_le_overflowUnits (by omega)

theorem representable_ofFloat (x : Float) : (ofFloat x).Representable :=
  representable_ofBits _

end Binary64

end Worksheet
