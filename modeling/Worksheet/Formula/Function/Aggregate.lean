import Worksheet.Value.Coercion

/-!
# Aggregates

Functions of any number of arguments, which may be ranges.  A range contributes the numbers in it.
A direct argument counts as in arithmetic, except that text that is not numeric is passed over.
-/

namespace Worksheet.Formula

/-- Functions of ranges. -/
inductive Aggregate where
  | sum
  | average
  | count
  | countAll
  | least
  | greatest
deriving DecidableEq, Inhabited

/-- An argument of an aggregate. -/
inductive Argument where
  /-- A direct argument. -/
  | one (s : Scalar)
  /-- The numbers in a range. -/
  | numbers (ns : List Number)
  /-- How many cells of a range are not empty. -/
  | filled (count : Nat)
deriving Inhabited

namespace Aggregate

/-- The name of a function. -/
def name : Aggregate → String
  | sum => "SUM"
  | average => "AVERAGE"
  | count => "COUNT"
  | countAll => "COUNTA"
  | least => "MIN"
  | greatest => "MAX"

/-- The number of arguments of a function. -/
def arity : Aggregate → Arity
  | count | countAll => .atLeast 0
  | _ => .atLeast 1

/-- The numbers that an argument contributes. -/
def numbersOf (strict : Bool) (f : Aggregate) : Argument → Except Failure (List Number)
  | .numbers ns => .ok ns
  | .filled _ => .ok []
  | .one (.text s) => do return (← numberOfText? s).toList
  | .one s => do return [← s.asNumber strict (some f.name)]

/-- The numbers that all arguments contribute, in order. -/
def allNumbers (strict : Bool) (f : Aggregate) (args : List Argument) :
    Except Failure (List Number) := do
  return (← args.mapM (f.numbersOf strict)).flatten

/-- How many values that are not empty an argument contributes. -/
def filledBy : Argument → Nat
  | .filled n => n
  | .numbers ns => ns.length
  | .one (.text s) => if s.isEmpty then 0 else 1
  | .one (.cellText s) => if s.isEmpty then 0 else 1
  | .one _ => 1

/-- The sum from left to right, starting from the integer zero. -/
def total (ns : List Number) : Except Failure Number :=
  ns.foldlM Number.add (.int 0)

/-- The first number that no other one is beyond in the given direction. -/
def extreme (direction : Ordering) : List Number → Option Number
  | [] => none
  | n :: ns =>
    some (ns.foldl (fun best m => if m.compare? best == some direction then m else best) n)

/-- The least or the greatest of some numbers. -/
def pick (f : Aggregate) (direction : Ordering) (ns : List Number) : Except Failure Number :=
  match extreme direction ns with
  | some n => .ok n
  | none => .error (.noNumbers f.name)

/-- The mean of some numbers. -/
def mean (ns : List Number) : Except Failure Number := do
  if ns.isEmpty then throw .nothingToAverage
  (← Number.quotient (← total ns) (.int ns.length)).checked

/-- The value of a function at arguments. -/
def apply (strict : Bool) (f : Aggregate) (args : List Argument) : Except Failure Scalar := do
  if !f.arity.accepts args.length then throw (.wrongArgumentCount f.name f.arity)
  match f with
  | countAll => return .number (.int ((args.map filledBy).foldl (· + ·) 0 : Nat))
  | count => return .number (.int (← f.allNumbers strict args).length)
  | sum => return .number (← (← total (← f.allNumbers strict args)).checked)
  | average => return .number (← mean (← f.allNumbers strict args))
  | least => return .number (← f.pick .lt (← f.allNumbers strict args))
  | greatest => return .number (← f.pick .gt (← f.allNumbers strict args))

end Aggregate

end Worksheet.Formula
