/-!
# Expressions

The tree of a formula.  A leaf keeps its text as written, so the tree can be printed back: a number
or a string is given its value only when the formula is evaluated.
-/

namespace Worksheet.Formula

/-- Comparisons. -/
inductive Comparison where
  | greater
  | less
  | greaterEqual
  | lessEqual
  | equal
  | notEqual
deriving DecidableEq, Inhabited

/-- Operators between two operands. -/
inductive BinaryOp where
  | compare (c : Comparison)
  | concat
  | add
  | sub
  | mul
  | div
  | pow
deriving DecidableEq, Inhabited

/-- Signs in front of an operand. -/
inductive SignOp where
  | neg
  | pos
deriving DecidableEq, Inhabited

/-- How tightly an operator binds: comparisons least, powers most.  Signs bind less than powers and
more than products. -/
def BinaryOp.level : BinaryOp → Nat
  | compare _ => 1
  | concat => 2
  | add | sub => 3
  | mul | div => 4
  | pow => 6

/-- How tightly a sign binds. -/
def SignOp.level (_ : SignOp) : Nat := 5

/-- A formula's expression. -/
inductive Expr where
  | number (text : String)
  | bool (b : Bool)
  /-- A string as written, quotes included. -/
  | text (literal : String)
  | cell (address : String)
  | range (first last : String)
  /-- A function's name as written, with its opening parenthesis, and the arguments. -/
  | call (opener : String) (args : List Expr)
  | sign (op : SignOp) (e : Expr)
  | percent (e : Expr)
  | binary (op : BinaryOp) (left right : Expr)
deriving Inhabited

/-- The name of a function without what follows it up to the parenthesis. -/
def nameOfOpener (opener : String) : String :=
  String.ofList
    (opener.toList.reverse.dropWhile (fun c => c == '(' || c == ' ' || c == '\t')).reverse

end Worksheet.Formula
