import Worksheet.Binary64.Basic

/-!
# Decimal digits of a binary number

Which digits stand for a binary64 magnitude.  `shortest` chooses the fewest that read back: among
the decimals that round to the number, those with the fewest digits, and of these the nearest.
`significant` rounds to a given number of digits.  All comparisons are made between natural numbers.
-/

namespace Worksheet.Decimal

/-- The decimal `digits * 10 ^ exponent`. -/
structure Digits where
  digits : Nat
  exponent : Int
deriving DecidableEq, Inhabited

/-- The decimal without zeros at the end of its digits; `steps` bounds how many are dropped. -/
def Digits.dropZeros : (steps : Nat) → Digits → Digits
  | 0, d => d
  | steps + 1, d =>
    if d.digits % 10 = 0 then dropZeros steps ⟨d.digits / 10, d.exponent + 1⟩ else d

/-- Ten to the power of the positive part of an exponent. -/
def tenTo (exponent : Int) : Nat :=
  Nat.pow 10 exponent.toNat

/-- A magnitude divided by `10 ^ exponent`, as numerator and denominator. -/
def overGrid (units : Nat) (exponent : Int) : Nat × Nat :=
  (units * tenTo (-exponent), Binary64.unitsPerOne * tenTo exponent)

/-- Corrects an estimate of the scale upwards, until the magnitude is below `10 ^ scale`. -/
def raiseScale (units : Nat) : (steps : Nat) → Int → Int
  | 0, scale => scale
  | steps + 1, scale =>
    let (n, d) := overGrid units scale
    if n < d then scale else raiseScale units steps (scale + 1)

/-- The least `scale` with the magnitude below `10 ^ scale`, for a positive magnitude.  The binary
logarithm gives an estimate that is too small by at most three. -/
def scale (units : Nat) : Int :=
  raiseScale units 5 (Int.fdiv (((units.log2 : Int) - 1074) * 30103) 100000 - 1)

/-- Whether `digits * 10 ^ exponent` lies among the reals that round to the magnitude: no further
away than half the gap to the neighbour on its side, and at that distance only if the significand is
even.  Below a power of two the gap is half as wide. -/
def readsBack (units : Nat) (d : Digits) : Bool :=
  let low := Binary64.lowBits units
  let gap := 1 <<< low
  let below := if 0 < low && units == 1 <<< (52 + low) then gap else 2 * gap
  let even := (units >>> low) % 2 == 0
  let point := 4 * d.digits * (Binary64.unitsPerOne * tenTo d.exponent)
  let least := (4 * units - below) * tenTo (-d.exponent)
  let greatest := (4 * units + 2 * gap) * tenTo (-d.exponent)
  if even then least ≤ point && point ≤ greatest else least < point && point < greatest

/-- The decimal of at most `count` digits that reads back and is nearest, if there is one: one of
the two neighbours of the magnitude on the grid of that many digits. -/
def withDigits? (units : Nat) (top : Int) (count : Nat) : Option Digits :=
  let exponent := top - count
  let (n, d) := overGrid units exponent
  let floor : Digits := ⟨n / d, exponent⟩
  let ceiling : Digits := ⟨n / d + 1, exponent⟩
  match readsBack units floor, readsBack units ceiling with
  | true, true => some ⟨Binary64.roundDiv n d, exponent⟩
  | true, false => some floor
  | false, true => some ceiling
  | false, false => none

/-- A magnitude rounded to `count` significant digits, a half going to the even neighbour. -/
def significant (count : Nat) (units : Nat) : Digits :=
  if units = 0 then ⟨0, 0⟩
  else
    let exponent := scale units - count
    let (n, d) := overGrid units exponent
    Digits.dropZeros (count + 1) ⟨Binary64.roundDiv n d, exponent⟩

/-- The fewest digits that read back as the magnitude.  Seventeen are always enough. -/
def shortest (units : Nat) : Digits :=
  if units = 0 then ⟨0, 0⟩
  else
    let top := scale units
    match (List.range 17).findSome? fun n => withDigits? units top (n + 1) with
    | some d => Digits.dropZeros 18 d
    | none => significant 17 units

end Worksheet.Decimal
