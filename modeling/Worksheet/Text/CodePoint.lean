/-!
# Code points

Text that comes from escapes can hold half of a surrogate pair on its own, which no character stands
for.  A code point is a character or such a half.
-/

namespace Worksheet

/-- A character, or a surrogate that belongs to no pair. -/
inductive CodePoint where
  | char (c : Char)
  /-- A surrogate, by its place among all surrogates. -/
  | surrogate (i : Fin 2048)
deriving DecidableEq, Inhabited

namespace CodePoint

/-- The number of a code point. -/
def toNat : CodePoint → Nat
  | char c => c.toNat
  | surrogate i => 0xd800 + i

/-- The code points of a text. -/
def ofString (s : String) : List CodePoint :=
  s.toList.map char

/-- The character that a code point is. -/
def char? : CodePoint → Option Char
  | char c => some c
  | surrogate _ => none

/-- The text that code points make up, if none of them is a surrogate. -/
def toString? (s : List CodePoint) : Option String :=
  (s.mapM char?).map String.ofList

/-- The order of texts by the numbers of their code points. -/
def textLE (a b : List CodePoint) : Bool :=
  !decide (b.map toNat < a.map toNat)

end CodePoint

end Worksheet
