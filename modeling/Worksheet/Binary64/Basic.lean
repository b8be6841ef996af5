/-!
# Binary floating-point numbers

A finite number of the IEEE 754 format *binary64* is a whole multiple of `2 ^ -1074`, the least
positive one.  So it is kept as a sign and a natural number of such units, and each operation is one
sentence: take the exact result and round it once.  Everything here is exact arithmetic on naturals
and integers, which makes comparisons with integers of any size exact as well.
-/

namespace Worksheet

/-- A binary64 number.  `finite negative units` is `± units * 2 ^ -1074`; a number that an operation
returns has at most 53 significant bits. -/
inductive Binary64 where
  | finite (negative : Bool) (units : Nat)
  | infinite (negative : Bool)
  | nan
deriving DecidableEq, Inhabited

namespace Binary64

/-- The number of units in one. -/
def unitsPerOne : Nat := Nat.pow 2 1074

/-- Magnitudes from here on are infinite. -/
def overflowUnits : Nat := Nat.pow 2 2098

/-! ## Rounding -/

/-- The quotient to the nearest natural number, a half going to the even neighbour. -/
def roundDiv (n d : Nat) : Nat :=
  let q := n / d
  let r := n % d
  if 2 * r < d then q else if d < 2 * r then q + 1 else q + q % 2

/-- How many low bits of a magnitude lie below its 53 significant ones. -/
def lowBits (units : Nat) : Nat :=
  units.log2 - 52

/-- The magnitude with at most 53 significant bits nearest to `n / d` units. -/
def roundUnits (n d : Nat) : Nat :=
  let low := lowBits (n / d)
  roundDiv n (d <<< low) <<< low

/-- The number nearest to `± n / d` units. -/
def ofUnits (negative : Bool) (n d : Nat) : Binary64 :=
  let units := roundUnits n d
  if units < overflowUnits then finite negative units else infinite negative

/-- The number nearest to `± n / d`. -/
def ofRatio (negative : Bool) (n d : Nat) : Binary64 :=
  ofUnits negative (n * unitsPerOne) d

/-- The number nearest to an integer. -/
def ofInt (i : Int) : Binary64 :=
  ofRatio (i < 0) i.natAbs 1

/-- The number nearest to `± digits * 10 ^ exponent`.  Exponents far outside the range are decided
by the number of digits alone. -/
def ofDecimal (negative : Bool) (digits : Nat) (exponent : Int) : Binary64 :=
  let size : Int := (digits.log2 : Int) * 30103 / 100000 + exponent
  if digits = 0 then finite negative 0
  else if size > 400 then infinite negative
  else if size < -400 then finite negative 0
  else if 0 ≤ exponent then ofRatio negative (digits * Nat.pow 10 exponent.toNat) 1
  else ofRatio negative digits (Nat.pow 10 (-exponent).toNat)

/-! ## Views -/

/-- The finite value as a signed number of units; the two zeros have the same value. -/
def signedUnits (negative : Bool) (units : Nat) : Int :=
  if negative then -(units : Int) else units

/-- Neither infinite nor a NaN. -/
def isFinite : Binary64 → Bool
  | finite .. => true
  | _ => false

/-- Finite and a whole number. -/
def isIntegral : Binary64 → Bool
  | finite _ units => units % unitsPerOne == 0
  | _ => false

/-- Plus or minus zero. -/
def isZero : Binary64 → Bool
  | finite _ units => units == 0
  | _ => false

/-- The greatest integer that is not above a finite number. -/
def floor? : Binary64 → Option Int
  | finite negative units => some (Int.fdiv (signedUnits negative units) unitsPerOne)
  | _ => none

/-- The least integer that is not below a finite number. -/
def ceil? : Binary64 → Option Int
  | finite negative units => some (-Int.fdiv (-signedUnits negative units) unitsPerOne)
  | _ => none

/-- A finite number without its fraction. -/
def truncate? : Binary64 → Option Int
  | finite negative units => some (Int.tdiv (signedUnits negative units) unitsPerOne)
  | _ => none

/-! ## Order -/

/-- The order of two numbers by exact value; nothing compares with a NaN. -/
def compare? : Binary64 → Binary64 → Option Ordering
  | finite s m, finite t n => some (compare (signedUnits s m) (signedUnits t n))
  | finite .., infinite t => some (if t then .gt else .lt)
  | infinite s, finite .. => some (if s then .lt else .gt)
  | infinite s, infinite t => some (compare t s)
  | nan, _ => none
  | _, nan => none

/-- The order of an integer and a number by exact value. -/
def compareInt? (i : Int) : Binary64 → Option Ordering
  | finite t n => some (compare (i * unitsPerOne) (signedUnits t n))
  | infinite t => some (if t then .gt else .lt)
  | nan => none

/-! ## Arithmetic -/

/-- The number with the other sign. -/
def neg : Binary64 → Binary64
  | finite s m => finite (!s) m
  | infinite s => infinite (!s)
  | nan => nan

/-- The number without its sign. -/
def abs : Binary64 → Binary64
  | finite _ m => finite false m
  | infinite _ => infinite false
  | nan => nan

/-- The sum.  A sum that cancels is plus zero, unless both operands are minus zero. -/
def add : Binary64 → Binary64 → Binary64
  | finite s m, finite t n =>
    let sum := signedUnits s m + signedUnits t n
    if sum = 0 then finite (s && t) 0 else ofUnits (sum < 0) sum.natAbs 1
  | infinite s, infinite t => if s == t then infinite s else nan
  | infinite s, finite .. => infinite s
  | finite .., infinite t => infinite t
  | nan, _ => nan
  | _, nan => nan

/-- The difference. -/
def sub (x y : Binary64) : Binary64 :=
  add x (neg y)

/-- The product. -/
def mul : Binary64 → Binary64 → Binary64
  | finite s m, finite t n => ofUnits (s != t) (m * n) unitsPerOne
  | infinite s, infinite t => infinite (s != t)
  | infinite s, finite t n => if n = 0 then nan else infinite (s != t)
  | finite s m, infinite t => if m = 0 then nan else infinite (s != t)
  | nan, _ => nan
  | _, nan => nan

/-- The quotient. -/
def div : Binary64 → Binary64 → Binary64
  | finite s m, finite t n =>
    if n = 0 then (if m = 0 then nan else infinite (s != t)) else ofRatio (s != t) m n
  | infinite _, infinite _ => nan
  | infinite s, finite t _ => infinite (s != t)
  | finite s _, infinite t => finite (s != t) 0
  | nan, _ => nan
  | _, nan => nan

/-- The remainder that has the sign of the divisor.  The remainder toward zero is exact; where the
signs differ the divisor is added, which rounds. -/
def mod : Binary64 → Binary64 → Binary64
  | finite s m, finite t n =>
    if n = 0 then nan
    else if m % n = 0 then finite t 0
    else if s == t then finite s (m % n)
    else add (finite s (m % n)) (finite t n)
  | finite s m, infinite t => if s == t || m = 0 then finite t m else infinite t
  | _, _ => nan

instance : Neg Binary64 := ⟨neg⟩
instance : Add Binary64 := ⟨add⟩
instance : Sub Binary64 := ⟨sub⟩
instance : Mul Binary64 := ⟨mul⟩
instance : Div Binary64 := ⟨div⟩
instance : Mod Binary64 := ⟨mod⟩

/-! ## The bit pattern -/

/-- The bits of a number: a sign, an exponent of 11 bits and a fraction of 52. -/
def toBits : Binary64 → UInt64
  | finite s m =>
    let low := lowBits m
    ((if s then 1 <<< 63 else 0) + (low <<< 52) + (m >>> low)).toUInt64
  | infinite s => if s then 0xfff0000000000000 else 0x7ff0000000000000
  | nan => 0x7ff8000000000000

/-- The number that a bit pattern stands for. -/
def ofBits (bits : UInt64) : Binary64 :=
  let negative := bits >>> 63 == 1
  let exponent := ((bits >>> 52) &&& 0x7ff).toNat
  let fraction := (bits &&& 0xfffffffffffff).toNat
  if exponent = 0x7ff then (if fraction = 0 then infinite negative else nan)
  else if exponent = 0 then finite negative fraction
  else finite negative ((Nat.pow 2 52 + fraction) <<< (exponent - 1))

end Binary64

end Worksheet
