import Worksheet.Failure
import Worksheet.Decimal.Layout
import Worksheet.Decimal.Numeral
import Worksheet.Binary64.Elementary

/-!
# Numbers

A number is an integer of any size or a binary64 number, and arithmetic keeps integers exact where
it can.  An operation on an integer and a binary64 number first rounds the integer, and fails if it
is too large; comparisons are made by exact value.
-/

namespace Worksheet

/-- An integer or a binary64 number. -/
inductive Number where
  | int (i : Int)
  | float (x : Binary64)
deriving DecidableEq, Inhabited

namespace Number

/-- The greatest number of digits of an integer that is read or written. -/
def maxDigits : Nat := 4300

/-- The decimal text of an integer. -/
def intText (i : Int) : Except Failure String :=
  if Nat.pow 10 maxDigits ≤ i.natAbs then .error .integerTooLongToWrite else .ok (toString i)

/-- The text of a number that tells it apart from all others: a whole binary64 number keeps `.0`. -/
def exactText : Number → Except Failure String
  | int i => intText i
  | float x => .ok (Decimal.exactText x)

/-- The number as text in a formula's result: a whole binary64 number is written as an integer. -/
def text : Number → Except Failure String
  | int i => intText i
  | float x =>
    match x.isIntegral, x.truncate? with
    | true, some i => intText i
    | _, _ => .ok (Decimal.exactText x)

/-- The number as it is displayed: like `text`, with ten significant digits for fractions. -/
def displayText : Number → Except Failure String
  | int i => intText i
  | float x =>
    match x.isIntegral, x.truncate? with
    | true, some i => intText i
    | _, _ => .ok (Decimal.briefText x)

/-- The number that a numeral denotes.  An integer has a bounded number of digits. -/
def ofNumeral (n : Decimal.Numeral) : Except Failure Number :=
  if n.isInteger then
    if maxDigits < n.whole.length then .error (.integerTooLongToRead n.whole.length)
    else .ok (int n.toInt)
  else .ok (float n.toBinary64)

/-- Finite, as every integer is. -/
def isFinite : Number → Bool
  | int _ => true
  | float x => x.isFinite

/-- Equal to zero. -/
def isZero : Number → Bool
  | int i => i == 0
  | float x => x.isZero

/-- Refuses what is not finite. -/
def checked (n : Number) : Except Failure Number :=
  if n.isFinite then .ok n else .error .resultOutOfRange

/-- The nearest binary64 number. -/
def toBinary64 : Number → Except Failure Binary64
  | int i =>
    let x := Binary64.ofInt i
    if x.isFinite then .ok x else .error .integerBeyondFloat
  | float x => .ok x

/-! ## Order -/

/-- The order of two numbers by exact value; nothing compares with a NaN. -/
def compare? : Number → Number → Option Ordering
  | int i, int j => some (compare i j)
  | int i, float y => y.compareInt? i
  | float x, int j => (x.compareInt? j).map Ordering.swap
  | float x, float y => x.compare? y

/-- Less than zero. -/
def isNegative (n : Number) : Bool :=
  n.compare? (int 0) == some .lt

/-! ## Arithmetic -/

/-- Applies the operation on integers to two integers, and the other one to all other operands. -/
def combine (exact : Int → Int → Int) (rounded : Binary64 → Binary64 → Binary64) :
    Number → Number → Except Failure Number
  | int i, int j => .ok (int (exact i j))
  | m, n => do return float (rounded (← m.toBinary64) (← n.toBinary64))

/-- The sum. -/
def add : Number → Number → Except Failure Number :=
  combine (· + ·) (· + ·)

/-- The difference. -/
def sub : Number → Number → Except Failure Number :=
  combine (· - ·) (· - ·)

/-- The product. -/
def mul : Number → Number → Except Failure Number :=
  combine (· * ·) (· * ·)

/-- The quotient by a number that is not zero.  That of two integers is rounded once. -/
def quotient : Number → Number → Except Failure Number
  | int i, int j =>
    let x := Binary64.ofRatio (decide (i < 0) != decide (j < 0)) i.natAbs j.natAbs
    if x.isFinite then .ok (float x) else .error .quotientBeyondFloat
  | m, n => do return float ((← m.toBinary64) / (← n.toBinary64))

/-- The quotient. -/
def div (m n : Number) : Except Failure Number :=
  if n.isZero then .error .divisionByZero else quotient m n

/-- The remainder that has the sign of the divisor, for a divisor that is not zero. -/
def mod : Number → Number → Except Failure Number :=
  combine Int.fmod (· % ·)

/-- The number with the other sign. -/
def neg : Number → Number
  | int i => int (-i)
  | float x => float (-x)

/-- The number without its sign. -/
def abs : Number → Number
  | int i => int i.natAbs
  | float x => float x.abs

/-- A hundredth. -/
def percent (n : Number) : Except Failure Number :=
  quotient n (int 100)

/-! ## Integers near a number -/

/-- The greatest integer that is not above. -/
def floor : Number → Except Failure Int
  | int i => .ok i
  | float x => (x.floor?.map Except.ok).getD (.error .infinityToInteger)

/-- The least integer that is not below. -/
def ceil : Number → Except Failure Int
  | int i => .ok i
  | float x => (x.ceil?.map Except.ok).getD (.error .infinityToInteger)

/-- The integer part. -/
def truncate : Number → Except Failure Int
  | int i => .ok i
  | float x => (x.truncate?.map Except.ok).getD (.error .infinityToInteger)

/-- Rounds to a multiple of `step` near the quotient that `near` picks an integer for. -/
def toMultiple (near : Number → Except Failure Int) (n step : Number) : Except Failure Number := do
  if step.isZero then return int 0
  let count ← near (← quotient n step)
  (← mul (int count) step).checked

/-- The number rounded to `places` decimal places, a half going away from zero.  The decimal that is
rounded is the shortest that reads back as the number, and no more places are looked at than a
binary64 number can have. -/
def round (n : Number) (places : Int) : Except Failure Number :=
  match n with
  | int i => if 0 ≤ places then .ok (int i) else roundFloat (int i)
  | n => roundFloat n
where
  roundFloat (n : Number) : Except Failure Number := do
    let places := max (min places 15) (-308)
    match ← n.toBinary64 with
    | .finite negative units =>
      let d := Decimal.shortest units
      let scale := d.exponent + places
      let digits := d.digits * Nat.pow 10 scale.toNat
      let grid := Nat.pow 10 (-scale).toNat
      return float (.ofDecimal negative ((2 * digits + grid) / (2 * grid)) (-places))
    | x => return float x

/-! ## Powers and logarithms -/

/-- An odd whole number. -/
def isOddFloat : Binary64 → Bool
  | .finite _ units => units % (2 * Binary64.unitsPerOne) == Binary64.unitsPerOne
  | _ => false

/-- The power of binary64 numbers.  The power of a negative number to a fraction is not real. -/
def floatPower (x y : Binary64) : Except Failure Binary64 :=
  let one := Binary64.ofInt 1
  let infinity := Binary64.infinite false
  if y.isZero then .ok one
  else match x, y with
    | .nan, _ => .ok .nan
    | _, .nan => .ok (if x = one then one else .nan)
    | _, .infinite negative =>
      match x.abs.compare? one with
      | some .eq => .ok one
      | order => .ok (if (order == some .gt) != negative then infinity else .ofInt 0)
    | .infinite negative, _ =>
      let sign := negative && isOddFloat y
      .ok (if y.compareInt? 0 == some .lt then .infinite sign else .finite sign 0)
    | .finite negative units, .finite down _ =>
      let odd := isOddFloat y
      if units = 0 then
        if down then .error .zeroToNegativePower else .ok (if odd then x else .ofInt 0)
      else if negative && !y.isIntegral then
        if (Binary64.pow x.abs y).isFinite then .error .powerNotReal
        else .error .complexPowerBeyondFloat
      else
        let magnitude := Binary64.pow x.abs y
        if magnitude.isFinite then .ok (if negative && odd then -magnitude else magnitude)
        else .error .powerBeyondFloat

/-- The power: exact for integers with an exponent from 0 to 64, else in binary64 numbers. -/
def power : Number → Number → Except Failure Number
  | int base, int exponent =>
    if 0 ≤ exponent && exponent ≤ 64 then .ok (int (Int.pow base exponent.toNat))
    else inFloats (int base) (int exponent)
  | base, exponent => inFloats base exponent
where
  inFloats (base exponent : Number) : Except Failure Number := do
    let x ← base.toBinary64
    let y ← exponent.toBinary64
    (float (← floatPower x y)).checked

/-- Applies a function of binary64 numbers and refuses a result that is not finite. -/
def map (f : Binary64 → Binary64) (n : Number) : Except Failure Number := do
  (float (f (← n.toBinary64))).checked

/-- The square root of a number that is not negative. -/
def sqrt (n : Number) : Except Failure Number := do
  if n.isNegative then throw (.negativeRoot (← n.exactText))
  n.map Binary64.sqrt

/-- The decimal logarithm of a number times a power of two. -/
def log10Scaled (lead : Binary64) (bits : Nat) : Binary64 :=
  lead.log10 + (Binary64.ofInt 2).log10 * .ofInt bits

/-- The decimal logarithm of an integer that is too large for a binary64 number: that of its leading
bits, a number from a half up to one, plus that of the power of two left out. -/
def log10Large (i : Nat) : Binary64 :=
  let bits := i.log2 + 1
  let lead := Binary64.ofRatio false i (Nat.pow 2 bits)
  if lead = .ofInt 1 then log10Scaled (.ofRatio false 1 2) (bits + 1) else log10Scaled lead bits

/-- The decimal logarithm of a positive number. -/
def log10 (n : Number) : Except Failure Number := do
  if n.isNegative || n.isZero then throw (.logarithmOfNonPositive (← n.exactText))
  match n with
  | int i =>
    let x := Binary64.ofInt i
    (float (if x.isFinite then x.log10 else log10Large i.natAbs)).checked
  | float x => (float x.log10).checked

end Number

end Worksheet
