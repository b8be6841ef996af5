import Worksheet.Proofs.Calls
import Worksheet.Proofs.Results
import Worksheet.Proofs.Quotients
import Mathlib.Data.Rat.Floor

/-!
# Multiples near an integer

`CEILING` and `FLOOR` take a quotient, which is rounded, an integer next to it, and the multiple
with that integer.  The multiple is the nearest one on its side exactly if rounding does not take
the quotient to another integer or past one.  For dividends up to two to the power 53 it does so
only where it makes the quotient vanish.
-/

namespace Worksheet

/-! ## The integers next to a rounded quotient -/

namespace Binary64

variable {s : Bool} {m d : Nat}

/-- A quotient is finite if it does not reach the point half way from the greatest number of the
format to two to the power 1024. -/
theorem isFinite_ofRatio_iff (hd : 0 < d) :
    (ofRatio s m d).isFinite = true ↔ m < (2 ^ 54 - 1) * 2 ^ 970 * d := by
  have hpoint : (2 ^ 54 - 1) * 2 ^ 2044 = (2 ^ 54 - 1) * 2 ^ 970 * unitsPerOne := by
    decide +kernel
  have hfinite : (ofRatio s m d).isFinite = true ↔
      roundUnits (m * unitsPerOne) d < overflowUnits := by
    unfold ofRatio ofUnits
    dsimp only
    split <;> simp [isFinite, *]
  have hoverflow : overflowUnits = 2 ^ (54 + 2044) := by decide +kernel
  rw [hfinite, hoverflow, roundUnits_lt_two_pow_iff hd, hpoint, Nat.mul_right_comm,
    Nat.mul_lt_mul_right unitsPerOne_pos]

/-- Small dividends have finite quotients. -/
theorem ofRatio_of_small (hd : 0 < d) (hm : m ≤ 2 ^ 53) :
    ofRatio s m d = finite s (roundUnits (m * unitsPerOne) d) := by
  have hlt : roundUnits (m * unitsPerOne) d < overflowUnits :=
    (roundUnits_le_small hd hm).trans_lt (by decide +kernel)
  unfold ofRatio ofUnits
  dsimp only
  rw [if_pos hlt]

/-- The rounded quotient of an integer by a positive one. -/
def quotientOf (x : Int) (d : Nat) : Binary64 :=
  ofRatio (decide (x < 0)) x.natAbs d

variable {x : Int}

/-- Which integers are not above the quotient of a small dividend. -/
theorem mul_le_signedUnits_iff (hd : 0 < d) (hx : x.natAbs ≤ 2 ^ 53)
    (hkeeps : ¬ (x < 0 ∧ 2 ^ 1075 * -x ≤ d)) (z : Int) :
    z * unitsPerOne ≤ signedUnits (decide (x < 0)) (roundUnits (x.natAbs * unitsPerOne) d) ↔
      z * d ≤ x := by
  have hunits : (0 : Int) < unitsPerOne := by exact_mod_cast unitsPerOne_pos
  have hdivisor : (0 : Int) < d := by exact_mod_cast hd
  unfold signedUnits
  rcases lt_or_ge x 0 with hneg | hpos
  · rw [decide_eq_true hneg, if_pos rfl]
    obtain ⟨m, rfl⟩ : ∃ m : Nat, x = -(m : Int) := ⟨x.natAbs, by omega⟩
    rw [Int.natAbs_neg, Int.natAbs_natCast] at hx ⊢
    rcases lt_or_ge 0 z with hz | hz
    · have hleft := mul_pos hz hunits
      have hright := mul_pos hz hdivisor
      constructor <;> intro h <;> omega
    · obtain ⟨k, rfl⟩ : ∃ k : Nat, z = -(k : Int) := ⟨z.natAbs, by omega⟩
      rw [neg_mul, neg_le_neg_iff, neg_mul, neg_le_neg_iff]
      have hkept : ¬ (0 < m ∧ 2 ^ 1075 * m ≤ d) := by
        rintro ⟨_, hvanishes⟩
        refine hkeeps ⟨hneg, ?_⟩
        rw [neg_neg]
        exact_mod_cast hvanishes
      exact_mod_cast roundUnits_le_mul_iff (k := k) hd hx (.inr hkept)
  · rw [decide_eq_false (not_lt.mpr hpos), if_neg Bool.false_ne_true]
    obtain ⟨m, rfl⟩ := Int.eq_ofNat_of_zero_le hpos
    rw [Int.natAbs_natCast] at hx ⊢
    rcases lt_or_ge z 0 with hz | hz
    · have hleft := mul_neg_of_neg_of_pos hz hunits
      have hright := mul_neg_of_neg_of_pos hz hdivisor
      constructor <;> intro h <;> omega
    · obtain ⟨k, rfl⟩ := Int.eq_ofNat_of_zero_le hz
      exact_mod_cast mul_le_roundUnits_iff (k := k) hd hx

theorem floor?_quotientOf_iff (hd : 0 < d) (hx : x.natAbs ≤ 2 ^ 53) :
    (quotientOf x d).floor? = some (x / d) ↔ ¬ (x < 0 ∧ 2 ^ 1075 * -x ≤ d) := by
  have hunits : (0 : Int) < unitsPerOne := by exact_mod_cast unitsPerOne_pos
  have hdivisor : (0 : Int) < d := by exact_mod_cast hd
  unfold quotientOf
  rw [ofRatio_of_small hd hx, floor?, Option.some_inj, Int.fdiv_eq_ediv_of_nonneg _ hunits.le]
  constructor
  · rintro h ⟨hneg, hvanishes⟩
    have hzero : roundUnits (x.natAbs * unitsPerOne) d = 0 := by
      refine (roundUnits_mul_eq_zero_iff hd).mpr ?_
      zify
      rwa [abs_of_neg hneg]
    have hsigned : ∀ s, signedUnits s 0 = 0 := by decide
    have hquotient := Int.ediv_neg_of_neg_of_pos hneg hdivisor
    rw [← h, hzero, hsigned, Int.zero_ediv] at hquotient
    exact absurd hquotient (lt_irrefl 0)
  · intro hkeeps
    refine eq_of_forall_le_iff fun z => ?_
    rw [Int.le_ediv_iff_mul_le hunits, Int.le_ediv_iff_mul_le hdivisor]
    exact mul_le_signedUnits_iff hd hx hkeeps z

/-- The ceiling of a quotient is the floor of the one with the other sign. -/
theorem ceil?_quotientOf (hd : 0 < d) (hx : x.natAbs ≤ 2 ^ 53) :
    (quotientOf x d).ceil? = (quotientOf (-x) d).floor?.map (- ·) := by
  have hsign : -signedUnits (decide (x < 0)) (roundUnits (x.natAbs * unitsPerOne) d) =
      signedUnits (decide (-x < 0)) (roundUnits (x.natAbs * unitsPerOne) d) := by
    rcases lt_trichotomy x 0 with hneg | rfl | hpos
    · simp [signedUnits, hneg, hneg.le]
    · have hzero : roundUnits 0 d = 0 := (roundUnits_eq_zero_iff hd).mpr (Nat.zero_le d)
      simp [signedUnits, hzero]
    · simp [signedUnits, hpos, hpos.le]
  unfold quotientOf
  rw [Int.natAbs_neg, ofRatio_of_small hd hx, ofRatio_of_small hd hx]
  simp only [ceil?, floor?, hsign, Option.map_some]

theorem ceil?_quotientOf_iff (hd : 0 < d) (hx : x.natAbs ≤ 2 ^ 53) :
    (quotientOf x d).ceil? = some (-(-x / d)) ↔ ¬ (0 < x ∧ 2 ^ 1075 * x ≤ d) := by
  have h := floor?_quotientOf_iff (x := -x) hd (by rwa [Int.natAbs_neg])
  rw [neg_neg, neg_lt_zero] at h
  rw [ceil?_quotientOf hd hx, ← h, Option.map_eq_some_iff]
  constructor
  · rintro ⟨k, hk, hneg⟩
    rw [hk, neg_inj.mp hneg]
  · intro hk
    exact ⟨_, hk, rfl⟩

/-- A finite quotient has integers next to it. -/
theorem exists_ceil?_of_isFinite {q : Binary64} (h : q.isFinite = true) :
    ∃ up down, q.ceil? = some up ∧ q.floor? = some down := by
  cases q with
  | finite s units => exact ⟨_, _, rfl, rfl⟩
  | infinite s => cases h
  | nan => cases h

end Binary64

/-! ## Multiples -/

namespace Number

open Binary64

variable {x : Int} {n : Nat}

theorem quotient_ints (x : Int) (n : Nat) : quotient (.int x) (.int n) =
    if (quotientOf x n).isFinite then .ok (.float (quotientOf x n))
    else .error .quotientBeyondFloat := by
  have hsign : (decide (x < 0) != decide ((n : Int) < 0)) = decide (x < 0) := by
    rw [decide_eq_false (Int.not_lt.mpr (Int.natCast_nonneg n)), Bool.bne_false]
  unfold quotient quotientOf
  dsimp only
  rw [hsign, Int.natAbs_natCast]

/-- The multiple that belongs to the integer next to the quotient. -/
theorem toMultiple_ints (hn : 0 < n) {near : Number → Except Failure Int} {k : Int}
    (hfinite : (quotientOf x n).isFinite = true) (hk : near (.float (quotientOf x n)) = .ok k) :
    toMultiple near (.int x) (.int n) = .ok (.int (k * n)) := by
  have hzero : (Number.int n).isZero = false := by
    simp [isZero, hn.ne']
  unfold toMultiple
  rw [hzero, quotient_ints, if_pos hfinite]
  show (near (.float (quotientOf x n)) >>= fun k => _) = _
  rw [hk]
  rfl

/-- There is none for a quotient that the format cannot hold. -/
theorem toMultiple_ints_of_beyond (hn : 0 < n) {near : Number → Except Failure Int}
    (hbeyond : (quotientOf x n).isFinite = false) :
    toMultiple near (.int x) (.int n) = .error .quotientBeyondFloat := by
  have hzero : (Number.int n).isZero = false := by
    simp [isZero, hn.ne']
  unfold toMultiple
  rw [hzero, quotient_ints, hbeyond]
  rfl

/-- The greatest multiple that is not above an integer has the greatest integer that is not above
the quotient. -/
theorem isGreatest_multiple_iff (hn : 0 < n) {k : Int} :
    IsGreatest {z : Int | (n : Int) ∣ z ∧ z ≤ x} (k * n) ↔ k = ⌊(x : ℚ) / n⌋ := by
  have hpos : (0 : Int) < n := by exact_mod_cast hn
  have hgreatest : IsGreatest {z : Int | (n : Int) ∣ z ∧ z ≤ x} (x / n * n) := by
    refine ⟨⟨dvd_mul_left _ _, Int.ediv_mul_le x hpos.ne'⟩, ?_⟩
    rintro _ ⟨⟨k, rfl⟩, hk⟩
    rw [Int.mul_comm] at hk ⊢
    exact Int.mul_le_mul_of_nonneg_right ((Int.le_ediv_iff_mul_le hpos).mpr hk) hpos.le
  rw [Rat.floor_intCast_div_natCast]
  constructor
  · intro h
    exact Int.eq_of_mul_eq_mul_right hpos.ne' (h.unique hgreatest)
  · rintro rfl
    exact hgreatest

/-- So has the least multiple that is not below it the least integer that is not below. -/
theorem isLeast_multiple_iff (hn : 0 < n) {k : Int} :
    IsLeast {z : Int | (n : Int) ∣ z ∧ x ≤ z} (k * n) ↔ k = ⌈(x : ℚ) / n⌉ := by
  have hpos : (0 : Int) < n := by exact_mod_cast hn
  have hleast : IsLeast {z : Int | (n : Int) ∣ z ∧ x ≤ z} (-(-x / n) * n) := by
    refine ⟨⟨dvd_mul_left _ _, ?_⟩, ?_⟩
    · have h := Int.ediv_mul_le (-x) hpos.ne'
      rw [Int.neg_mul]
      omega
    · rintro _ ⟨⟨k, rfl⟩, hk⟩
      have hle : -k ≤ -x / n := by
        rw [Int.le_ediv_iff_mul_le hpos, Int.neg_mul, Int.mul_comm]
        omega
      rw [Int.mul_comm (n : Int)]
      exact Int.mul_le_mul_of_nonneg_right (by omega) hpos.le
  rw [Rat.ceil_intCast_div_natCast]
  constructor
  · intro h
    exact Int.eq_of_mul_eq_mul_right hpos.ne' (h.unique hleast)
  · rintro rfl
    exact hleast

end Number

/-! ## Calls -/

namespace Formula

open Binary64

variable {cells : Cells} {s : Setting} {d : Nat} {a b : Expr} {x : Int} {n : Nat}

/-- What a call of a mathematical function with two integers comes to. -/
theorem Expr.ComesTo.callMath {opener : String} {f : MathFunction} {m : Int}
    (hf : Function.named? (nameOfOpener opener) = some (.math f))
    (harity : f.arity.accepts 2 = true)
    (ha : a.ComesTo s cells (d + argumentCost) (.ok (.number (.int x))))
    (hb : b.ComesTo s cells (d + argumentCost) (.ok (.number (.int m)))) :
    (Expr.call opener [a, b]).ComesTo s cells d
      (Scalar.number <$> f.compute [.int x, .int m]) := by
  have happly : f.apply s.strict [.number (.int x), .number (.int m)] =
      Scalar.number <$> f.compute [.int x, .int m] := by
    unfold MathFunction.apply
    rw [List.length_cons, List.length_singleton, harity]
    rfl
  rw [← happly]
  exact .call hf (by simp) (by simp) (.cons ha (.cons hb .nil)) (.ofExcept _)

/-- **`CEILING` and `FLOOR` come to a multiple, unless the quotient is beyond the format, and it is
the one next to the integer exactly if the rounded quotient lies between the same integers as the
exact one.**  For an integer of at most two to the power 53 it does so unless rounding makes the
quotient vanish, and then only one of the two is wrong. -/
theorem ceiling_floor_iff (hn : 0 < n)
    (ha : a.ComesTo s cells (d + argumentCost) (.ok (.number (.int x))))
    (hb : b.ComesTo s cells (d + argumentCost) (.ok (.number (.int n)))) :
    ((2 ^ 54 - 1) * 2 ^ 970 * n ≤ x.natAbs →
      (Expr.call "CEILING(" [a, b]).ComesTo s cells d (.error .quotientBeyondFloat) ∧
      (Expr.call "FLOOR(" [a, b]).ComesTo s cells d (.error .quotientBeyondFloat)) ∧
    (x.natAbs < (2 ^ 54 - 1) * 2 ^ 970 * n → ∃ up down : Int,
      (quotientOf x n).ceil? = some up ∧ (quotientOf x n).floor? = some down ∧
      (Expr.call "CEILING(" [a, b]).ComesTo s cells d (.ok (.number (.int (up * n)))) ∧
      (Expr.call "FLOOR(" [a, b]).ComesTo s cells d (.ok (.number (.int (down * n)))) ∧
      (IsLeast {z : Int | (n : Int) ∣ z ∧ x ≤ z} (up * n) ↔ up = ⌈(x : ℚ) / n⌉) ∧
      (IsGreatest {z : Int | (n : Int) ∣ z ∧ z ≤ x} (down * n) ↔ down = ⌊(x : ℚ) / n⌋) ∧
      (x.natAbs ≤ 2 ^ 53 →
        (up = ⌈(x : ℚ) / n⌉ ↔ ¬ (0 < x ∧ 2 ^ 1075 * x ≤ n)) ∧
        (down = ⌊(x : ℚ) / n⌋ ↔ ¬ (x < 0 ∧ 2 ^ 1075 * -x ≤ n)))) := by
  have hupName : Function.named? (nameOfOpener "CEILING(") = some (.math .ceiling) := by
    decide +kernel
  have hdownName : Function.named? (nameOfOpener "FLOOR(") = some (.math .floor) := by
    decide +kernel
  have hceiling := Expr.ComesTo.callMath hupName rfl ha hb
  have hfloor := Expr.ComesTo.callMath hdownName rfl ha hb
  dsimp only [MathFunction.compute] at hceiling hfloor
  constructor
  · intro hbeyond
    have hinfinite : (quotientOf x n).isFinite = false :=
      Bool.eq_false_iff.mpr fun h => hbeyond.not_gt ((isFinite_ofRatio_iff hn).mp h)
    rw [Number.toMultiple_ints_of_beyond hn hinfinite] at hceiling hfloor
    exact ⟨hceiling, hfloor⟩
  · intro hwithin
    have hfinite : (quotientOf x n).isFinite = true := (isFinite_ofRatio_iff hn).mpr hwithin
    obtain ⟨up, down, hup, hdown⟩ := exists_ceil?_of_isFinite hfinite
    rw [Number.toMultiple_ints hn hfinite (k := up) (by rw [Number.ceil, hup]; rfl)] at hceiling
    rw [Number.toMultiple_ints hn hfinite (k := down) (by rw [Number.floor, hdown]; rfl)] at hfloor
    refine ⟨up, down, hup, hdown, hceiling, hfloor, Number.isLeast_multiple_iff hn,
      Number.isGreatest_multiple_iff hn, fun hx => ⟨?_, ?_⟩⟩
    · rw [← ceil?_quotientOf_iff hn hx, hup, Option.some_inj, Rat.ceil_intCast_div_natCast]
    · rw [← floor?_quotientOf_iff hn hx, hdown, Option.some_inj, Rat.floor_intCast_div_natCast]

/-- The multiples of two next to seven. -/
theorem ceiling_floor_seven :
    let s : Setting := ⟨false, noon, none, []⟩
    let seven : Expr := .number "7"
    let two : Expr := .number "2"
    0 < 2 ∧ seven.ComesTo s .empty argumentCost (.ok (.number (.int 7))) ∧
      two.ComesTo s .empty argumentCost (.ok (.number (.int 2))) ∧
      (Expr.call "CEILING(" [seven, two]).ComesTo s .empty 0 (.ok (.number (.int 8))) ∧
      (Expr.call "FLOOR(" [seven, two]).ComesTo s .empty 0 (.ok (.number (.int 6))) ∧
      IsLeast {z : Int | 2 ∣ z ∧ 7 ≤ z} 8 ∧ IsGreatest {z : Int | 2 ∣ z ∧ z ≤ 7} 6 := by
  intro s seven two
  have hdeep : ∀ depth ≤ 0 + argumentCost, s.exceeds depth = false := fun _ _ => rfl
  have hseven : seven.ComesTo s .empty (0 + argumentCost) (.ok (.number (.int 7))) :=
    .number hdeep (by cbv)
  have htwo : two.ComesTo s .empty (0 + argumentCost) (.ok (.number (.int (2 : Nat)))) :=
    .number hdeep (by cbv)
  obtain ⟨-, hwithin⟩ := ceiling_floor_iff two_pos hseven htwo
  obtain ⟨up, down, hup, hdown, hceiling, hfloor, hleast, hgreatest, hsmall⟩ :=
    hwithin (by decide +kernel)
  obtain ⟨hupper, hlower⟩ := hsmall (by decide)
  have hfour : (quotientOf 7 2).ceil? = some 4 := by decide +kernel
  have hthree : (quotientOf 7 2).floor? = some 3 := by decide +kernel
  obtain rfl : up = 4 := Option.some.inj (hup.symm.trans hfour)
  obtain rfl : down = 3 := Option.some.inj (hdown.symm.trans hthree)
  exact ⟨two_pos, hseven, htwo, hceiling, hfloor, hleast.mpr (hupper.mpr (by decide +kernel)),
    hgreatest.mpr (hlower.mpr (by decide))⟩

/-- The first integer that the format does not hold is rounded before it is a quotient. -/
theorem ceiling_beyondSignificand :
    evaluate false noon none .empty (.text "=CEILING(9007199254740993,1)") =
        pure (.ok (.number (.int 9007199254740992))) ∧
      ¬ IsLeast {z : Int | 1 ∣ z ∧ 9007199254740993 ≤ z} 9007199254740992 := by
  have hparse : parse "=CEILING(9007199254740993,1)" =
      .ok (.call "CEILING(" [.number "9007199254740993", .number "1"]) := by cbv
  have hdeep : ∀ depth ≤ 0 + argumentCost, (Setting.mk false noon none []).exceeds depth = false :=
    fun _ _ => rfl
  have hnumber : (Expr.number "9007199254740993").ComesTo ⟨false, noon, none, []⟩ .empty
      (0 + argumentCost) (.ok (.number (.int 9007199254740993))) := .number hdeep (by cbv)
  have hone : (Expr.number "1").ComesTo ⟨false, noon, none, []⟩ .empty (0 + argumentCost)
      (.ok (.number (.int 1))) := .number hdeep (by cbv)
  have hname : Function.named? (nameOfOpener "CEILING(") = some (.math .ceiling) := by
    decide +kernel
  have hceiling := Expr.ComesTo.callMath hname rfl hnumber hone
  have hmultiple : MathFunction.compute .ceiling [.int 9007199254740993, .int 1] =
      .ok (.int 9007199254740992) := by decide +kernel
  rw [hmultiple] at hceiling
  refine ⟨hceiling.evaluate_eq (by decide +kernel) hparse, fun h => ?_⟩
  have hle := h.1.2
  omega

end Formula

end Worksheet
