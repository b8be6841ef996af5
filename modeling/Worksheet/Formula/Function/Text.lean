import Worksheet.Value.Coercion

/-!
# Text functions

Functions of text.  Lengths and positions count characters.
-/

namespace Worksheet.Formula

/-- Functions of text. -/
inductive TextFunction where
  | concatenate
  | left
  | right
  | mid
  | len
  | upper
  | lower
  | trim
deriving DecidableEq, Inhabited

namespace TextFunction

/-- The name of a function. -/
def name : TextFunction → String
  | concatenate => "CONCATENATE"
  | left => "LEFT"
  | right => "RIGHT"
  | mid => "MID"
  | len => "LEN"
  | upper => "UPPER"
  | lower => "LOWER"
  | trim => "TRIM"

/-- The number of arguments of a function. -/
def arity : TextFunction → Arity
  | concatenate => .atLeast 1
  | left | right => .between 1 2
  | mid => .exactly 3 ""
  | _ => .exactly 1 ""

/-- The first characters of a text. -/
def takeLeft (n : Nat) (cs : List Char) : List Char :=
  cs.take n

/-- The last characters of a text.  A count that exceeds the length wraps around: the excess is then
the number of characters taken. -/
def takeRight (n : Nat) (cs : List Char) : List Char :=
  if n ≤ cs.length then cs.drop (cs.length - n) else cs.drop (2 * cs.length - n)

/-- The characters of a text from a position on, counted from one. -/
def takeMid (start n : Nat) (cs : List Char) : List Char :=
  (cs.drop (start - 1)).take n

/-- The text with single spaces between its words and none around them. -/
def trimmed (cs : List Char) : List Char :=
  [' '].intercalate (Text.words cs)

/-- An argument that counts characters. -/
def countArgument (strict : Bool) (f : TextFunction) (s : Scalar) : Except Failure Nat := do
  let n ← (← s.asNumber strict (some f.name)).truncate
  if n < 0 then throw (.negativeCount f.name (← Number.intText n))
  return n.toNat

/-- Applies a function of characters to an argument's text. -/
def mapText (f : List Char → List Char) (s : Scalar) : Except Failure Scalar := do
  return .text (String.ofList (f (← s.toText).toList))

/-- The value of a function at scalars. -/
def apply (strict : Bool) (f : TextFunction) (args : List Scalar) : Except Failure Scalar := do
  if !f.arity.accepts args.length then throw (.wrongArgumentCount f.name f.arity)
  match f, args with
  | concatenate, args => return .text (String.join (← args.mapM Scalar.toText))
  | left, [s] => mapText (takeLeft 1) s
  | left, [s, count] => do
    let n ← countArgument strict f count
    mapText (takeLeft n) s
  | right, [s] => mapText (takeRight 1) s
  | right, [s, count] => do
    let n ← countArgument strict f count
    mapText (takeRight n) s
  | mid, [s, start, count] => do
    let start ← (← start.asNumber strict (some f.name)).truncate
    if start < 1 then throw (.startBeforeText (← Number.intText start))
    let n ← countArgument strict f count
    mapText (takeMid start.toNat n) s
  | len, [s] => return .number (.int (← s.toText).length)
  | upper, [s] => return .text (Text.upper (← s.toText))
  | lower, [s] => return .text (Text.lower (← s.toText))
  | trim, [s] => mapText trimmed s
  | f, _ => throw (.wrongArgumentCount f.name f.arity)

end TextFunction

end Worksheet.Formula
