import Worksheet.Value.Coercion

/-!
# Mathematical functions

Functions of numbers.  All arguments are read as numbers, from left to right, before anything is
computed.
-/

namespace Worksheet.Formula

/-- Functions of numbers. -/
inductive MathFunction where
  | power
  | sqrt
  | sin
  | cos
  | tan
  | log10
  | round
  | ceiling
  | floor
  | abs
  | mod
  | pi
  | e
deriving DecidableEq, Inhabited

namespace MathFunction

/-- The name of a function. -/
def name : MathFunction → String
  | power => "POWER"
  | sqrt => "SQRT"
  | sin => "SIN"
  | cos => "COS"
  | tan => "TAN"
  | log10 => "LOG10"
  | round => "ROUND"
  | ceiling => "CEILING"
  | floor => "FLOOR"
  | abs => "ABS"
  | mod => "MOD"
  | pi => "PI"
  | e => "E"

/-- The number of arguments of a function. -/
def arity : MathFunction → Arity
  | power | mod => .exactly 2 ""
  | round | ceiling | floor => .between 1 2
  | pi | e => .exactly 0 ""
  | _ => .exactly 1 ""

/-- The value of a function at numbers. -/
def compute : MathFunction → List Number → Except Failure Number
  | power, [x, y] => x.power y
  | sqrt, [x] => x.sqrt
  | sin, [x] => x.map Binary64.sin
  | cos, [x] => x.map Binary64.cos
  | tan, [x] => x.map Binary64.tan
  | log10, [x] => x.log10
  | round, [x] => x.round 0
  | round, [x, places] => do x.round (← places.truncate)
  | ceiling, [x] => Number.toMultiple Number.ceil x (.int 1)
  | ceiling, [x, step] => Number.toMultiple Number.ceil x step
  | floor, [x] => Number.toMultiple Number.floor x (.int 1)
  | floor, [x, step] => Number.toMultiple Number.floor x step
  | abs, [x] => .ok x.abs
  | mod, [x, y] => if y.isZero then .error .remainderByZero else x.mod y
  | pi, [] => .ok (.float Binary64.pi)
  | e, [] => .ok (.float Binary64.e)
  | f, _ => .error (.wrongArgumentCount f.name f.arity)

/-- The value of a function at scalars. -/
def apply (strict : Bool) (f : MathFunction) (args : List Scalar) : Except Failure Scalar := do
  if !f.arity.accepts args.length then throw (.wrongArgumentCount f.name f.arity)
  let numbers ← args.mapM (Scalar.asNumber strict (some f.name))
  return .number (← f.compute numbers)

end MathFunction

end Worksheet.Formula
