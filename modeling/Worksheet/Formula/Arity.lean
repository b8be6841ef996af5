/-!
# Numbers of arguments

How many arguments a function takes, and how a message says so.
-/

namespace Worksheet.Formula

/-- The numbers of arguments that a function accepts. -/
inductive Arity where
  /-- Exactly that many; `parameters` names them in messages, or is empty. -/
  | exactly (count : Nat) (parameters : String)
  | between (low high : Nat)
  | atLeast (count : Nat)
  | nothing
deriving DecidableEq

namespace Arity

/-- Whether so many arguments are accepted. -/
def accepts : Arity → Nat → Bool
  | exactly count _, n => n == count
  | between low high, n => low ≤ n && n ≤ high
  | atLeast count, n => count ≤ n
  | nothing, n => n == 0

/-- One argument, or several. -/
def plural (count : Nat) : String :=
  if count = 1 then "argument" else "arguments"

/-- What a message says that the function requires. -/
def requirement : Arity → String
  | exactly count parameters =>
    let base := "requires exactly " ++ toString count ++ " " ++ plural count
    if parameters.isEmpty then base else base ++ " (" ++ parameters ++ ")"
  | between low high => "requires " ++ toString low ++ "-" ++ toString high ++ " arguments"
  | atLeast count => "requires at least " ++ toString count ++ " " ++ plural count
  | nothing => "takes no arguments"

end Arity

end Worksheet.Formula
