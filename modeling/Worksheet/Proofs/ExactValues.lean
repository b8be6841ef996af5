import Mathlib
import Worksheet.Proofs.Magnitudes

/-!
# Exact values

A number that is not a NaN stands for a rational number or for one of two infinities.  Numbers are
compared as these are.  An integer is not rounded for that, however large it is.
-/

namespace Worksheet

/-- A map that keeps the order keeps the outcome of comparing. -/
theorem compare_map_of_strictMono {α β : Type} [LinearOrder α] [LinearOrder β] {f : α → β}
    (hf : StrictMono f) (a b : α) : compare (f a) (f b) = compare a b := by
  rw [← cmp_eq_compare, ← cmp_eq_compare]
  exact hf.cmp_map_eq a b

/-! ## Exact values -/

/-- A rational number among those with two infinities around them. -/
def extended (q : ℚ) : WithBot (WithTop ℚ) :=
  (q : WithTop ℚ)

theorem extended_strictMono : StrictMono extended :=
  WithBot.coe_strictMono.comp WithTop.coe_strictMono

theorem bot_lt_extended (q : ℚ) : ⊥ < extended q :=
  WithBot.bot_lt_coe _

theorem extended_lt_top (q : ℚ) : extended q < ⊤ :=
  WithBot.coe_lt_coe.mpr (WithTop.coe_lt_top q)

namespace Binary64

/-- The value of a number of units. -/
def ofSignedUnits (k : Int) : WithBot (WithTop ℚ) :=
  extended (k / unitsPerOne)

/-- The value of an infinite number. -/
def infinity (negative : Bool) : WithBot (WithTop ℚ) :=
  if negative then ⊥ else ⊤

/-- The value that a number stands for, without any rounding, if it is not a NaN. -/
def exactValue? : Binary64 → Option (WithBot (WithTop ℚ))
  | finite s m => some (ofSignedUnits (signedUnits s m))
  | infinite s => some (infinity s)
  | nan => none

theorem ofSignedUnits_strictMono : StrictMono ofSignedUnits := by
  have hpos : (0 : ℚ) < unitsPerOne := Nat.cast_pos.mpr unitsPerOne_pos
  intro i j hij
  refine extended_strictMono (div_lt_div_of_pos_right ?_ hpos)
  exact Int.cast_lt.mpr hij

/-- As a number of units, an integer keeps its value. -/
theorem ofSignedUnits_mul_unitsPerOne (i : Int) :
    ofSignedUnits (i * unitsPerOne) = extended i := by
  have hne : (unitsPerOne : ℚ) ≠ 0 := Nat.cast_ne_zero.mpr unitsPerOne_pos.ne'
  unfold ofSignedUnits
  rw [Int.cast_mul, Int.cast_natCast, mul_div_cancel_right₀ _ hne]

theorem compare_infinity (q : ℚ) (s : Bool) :
    compare (extended q) (infinity s) = if s then .gt else .lt := by
  cases s with
  | true => exact compare_gt_iff_gt.mpr (bot_lt_extended q)
  | false => exact compare_lt_iff_lt.mpr (extended_lt_top q)

theorem infinity_compare (q : ℚ) (s : Bool) :
    compare (infinity s) (extended q) = if s then .lt else .gt := by
  cases s with
  | true => exact compare_lt_iff_lt.mpr (bot_lt_extended q)
  | false => exact compare_gt_iff_gt.mpr (extended_lt_top q)

/-- Of two infinities, the one with the sign is the lesser. -/
theorem compare_infinities (s t : Bool) : compare (infinity s) (infinity t) = compare t s := by
  match s, t with
  | true, true | false, false => exact compare_eq_iff_eq.mpr rfl
  | true, false => exact compare_lt_iff_lt.mpr bot_lt_top
  | false, true => exact compare_gt_iff_gt.mpr bot_lt_top

theorem compare?_eq (x y : Binary64) :
    x.compare? y = Option.map₂ compare x.exactValue? y.exactValue? := by
  match x, y with
  | finite s m, finite t n =>
      exact congrArg some (compare_map_of_strictMono ofSignedUnits_strictMono _ _).symm
  | finite s m, infinite t => exact congrArg some (compare_infinity _ t).symm
  | infinite s, finite t n => exact congrArg some (infinity_compare _ s).symm
  | infinite s, infinite t => exact congrArg some (compare_infinities s t).symm
  | nan, _ | finite .., nan | infinite _, nan => rfl

theorem compareInt?_eq (i : Int) (y : Binary64) :
    y.compareInt? i = y.exactValue?.map (compare (extended i)) := by
  cases y with
  | finite t n =>
      refine congrArg some ?_
      rw [← ofSignedUnits_mul_unitsPerOne]
      exact (compare_map_of_strictMono ofSignedUnits_strictMono _ _).symm
  | infinite t => exact congrArg some (compare_infinity _ t).symm
  | nan => rfl

end Binary64

namespace Number

/-- The value that a number stands for, without any rounding, if it is not a NaN. -/
def exactValue? : Number → Option (WithBot (WithTop ℚ))
  | int i => some (extended i)
  | float x => x.exactValue?

theorem exists_exactValue {n : Number} (h : n ≠ float .nan) : ∃ u, n.exactValue? = some u := by
  match n with
  | int i => exact ⟨_, rfl⟩
  | float (.finite s m) => exact ⟨_, rfl⟩
  | float (.infinite s) => exact ⟨_, rfl⟩
  | float .nan => exact absurd rfl h

/-- **Numbers are compared by exact value**, integers of any size and floating-point numbers alike. -/
theorem compare?_eq (m n : Number) :
    m.compare? n = Option.map₂ compare m.exactValue? n.exactValue? := by
  match m, n with
  | int i, int j =>
      have hcast : StrictMono fun k : Int => extended k :=
        extended_strictMono.comp Int.cast_strictMono
      exact congrArg some (compare_map_of_strictMono hcast i j).symm
  | int i, float y => exact Binary64.compareInt?_eq i y
  | float x, int j =>
      show (x.compareInt? j).map Ordering.swap =
        Option.map₂ compare x.exactValue? (some (extended j))
      rw [Binary64.compareInt?_eq]
      cases x.exactValue? with
      | none => rfl
      | some u => exact congrArg some Std.OrientedOrd.eq_swap.symm
  | float x, float y => exact Binary64.compare?_eq x y

end Number

end Worksheet
