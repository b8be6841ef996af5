import Worksheet.Value.Coercion

/-!
# Logical functions

Functions of conditions.  All arguments are read as conditions, whatever the first ones say.
-/

namespace Worksheet.Formula

/-- Functions of conditions. -/
inductive LogicalFunction where
  | all
  | any
  | not
deriving DecidableEq, Inhabited

namespace LogicalFunction

/-- The name of a function. -/
def name : LogicalFunction → String
  | all => "AND"
  | any => "OR"
  | not => "NOT"

/-- The number of arguments of a function. -/
def arity : LogicalFunction → Arity
  | all | any => .atLeast 1
  | not => .exactly 1 ""

/-- The value of a function at conditions. -/
def compute : LogicalFunction → List Bool → Bool
  | all, bs => bs.all id
  | any, bs => bs.any id
  | not, bs => !bs.any id

/-- The value of a function at scalars. -/
def apply (f : LogicalFunction) (args : List Scalar) : Except Failure Scalar := do
  if !f.arity.accepts args.length then throw (.wrongArgumentCount f.name f.arity)
  return .bool (f.compute (← args.mapM Scalar.asCondition))

end LogicalFunction

end Worksheet.Formula
