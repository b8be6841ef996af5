import Worksheet.Formula.Function.Math
import Worksheet.Formula.Function.Text
import Worksheet.Formula.Function.Logical
import Worksheet.Formula.Function.Date
import Worksheet.Formula.Function.Aggregate

/-!
# Functions by name

All functions that formulas can call.  Most are computed from the values of their arguments.
Conditional functions get their arguments unevaluated, and random ones draw from a source.
-/

namespace Worksheet.Formula

/-- Functions that evaluate an argument only when they need it. -/
inductive Conditional where
  | ifThen
  | ifError
  | isError
deriving DecidableEq, Inhabited

namespace Conditional

/-- The name of a function. -/
def name : Conditional → String
  | ifThen => "IF"
  | ifError => "IFERROR"
  | isError => "ISERROR"

/-- The number of arguments of a function. -/
def arity : Conditional → Arity
  | ifThen => .between 2 3
  | ifError => .exactly 2 ""
  | isError => .exactly 1 ""

/-- The failure of a call with the wrong number of arguments. -/
def misuse (f : Conditional) : Failure :=
  .wrongArgumentCount f.name f.arity

end Conditional

/-- Functions that draw random numbers. -/
inductive RandomFunction where
  | fraction
  | between
deriving DecidableEq, Inhabited

namespace RandomFunction

/-- The name of a function in messages. -/
def name : RandomFunction → String
  | fraction => "RANDOM"
  | between => "RANDBETWEEN"

/-- The number of arguments of a function. -/
def arity : RandomFunction → Arity
  | fraction => .exactly 0 ""
  | between => .exactly 2 ""

end RandomFunction

/-- A function that formulas can call. -/
inductive Function where
  | conditional (f : Conditional)
  | aggregate (f : Aggregate)
  | random (f : RandomFunction)
  | math (f : MathFunction)
  | logical (f : LogicalFunction)
  | text (f : TextFunction)
  | date (f : DateFunction)
deriving DecidableEq, Inhabited

namespace Function

/-- All functions by name, sorted by name. -/
def table : List (String × Function) := [
  ("ABS", .math .abs),
  ("AND", .logical .all),
  ("AVERAGE", .aggregate .average),
  ("CEILING", .math .ceiling),
  ("CONCATENATE", .text .concatenate),
  ("COS", .math .cos),
  ("COUNT", .aggregate .count),
  ("COUNTA", .aggregate .countAll),
  ("DATE", .date .date),
  ("DAY", .date .day),
  ("E", .math .e),
  ("EOMONTH", .date .endOfMonth),
  ("FLOOR", .math .floor),
  ("IF", .conditional .ifThen),
  ("IFERROR", .conditional .ifError),
  ("ISERROR", .conditional .isError),
  ("LEFT", .text .left),
  ("LEN", .text .len),
  ("LOG10", .math .log10),
  ("LOWER", .text .lower),
  ("MAX", .aggregate .greatest),
  ("MID", .text .mid),
  ("MIN", .aggregate .least),
  ("MOD", .math .mod),
  ("MONTH", .date .month),
  ("NOT", .logical .not),
  ("NOW", .date .now),
  ("OR", .logical .any),
  ("PI", .math .pi),
  ("POWER", .math .power),
  ("RAND", .random .fraction),
  ("RANDBETWEEN", .random .between),
  ("RANDOM", .random .fraction),
  ("RIGHT", .text .right),
  ("ROUND", .math .round),
  ("SIN", .math .sin),
  ("SQRT", .math .sqrt),
  ("SUM", .aggregate .sum),
  ("TAN", .math .tan),
  ("TODAY", .date .today),
  ("TRIM", .text .trim),
  ("UPPER", .text .upper),
  ("YEAR", .date .year)]

/-- The function of a name, which is written in capitals. -/
def named? (name : String) : Option Function :=
  table.lookup name

/-- The names of all functions, sorted. -/
def names : List String :=
  table.map (·.1)

end Function

end Worksheet.Formula
