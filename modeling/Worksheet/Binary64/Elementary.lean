import Worksheet.Binary64.Basic

/-!
# Elementary functions

Square root, sine, cosine, tangent, decimal logarithm and power are the machine's own: a number is
handed over by its bit pattern and the answer is read back the same way.
-/

namespace Worksheet.Binary64

/-- The machine number with the same bits. -/
def toFloat (x : Binary64) : Float :=
  Float.ofBits x.toBits

/-- The number with the same bits as a machine number. -/
def ofFloat (x : Float) : Binary64 :=
  ofBits x.toBits

/-- The square root, correctly rounded. -/
def sqrt (x : Binary64) : Binary64 :=
  ofFloat x.toFloat.sqrt

/-- The sine of an angle in radians. -/
def sin (x : Binary64) : Binary64 :=
  ofFloat x.toFloat.sin

/-- The cosine of an angle in radians. -/
def cos (x : Binary64) : Binary64 :=
  ofFloat x.toFloat.cos

/-- The tangent of an angle in radians. -/
def tan (x : Binary64) : Binary64 :=
  ofFloat x.toFloat.tan

/-- The decimal logarithm. -/
def log10 (x : Binary64) : Binary64 :=
  ofFloat x.toFloat.log10

/-- The power, for the operands that `Number.power` leaves to it. -/
def pow (x y : Binary64) : Binary64 :=
  ofFloat (x.toFloat.pow y.toFloat)

/-- The ratio of a circle's circumference to its diameter. -/
def pi : Binary64 := ofBits 0x400921fb54442d18

/-- The base of the natural logarithm. -/
def e : Binary64 := ofBits 0x4005bf0a8b145769

end Worksheet.Binary64
