import Worksheet.Binary64.Basic

/-!
# Random numbers

A source of random numbers is a sequence of fractions and a sequence of integers, and how many of
each have been drawn.
-/

namespace Worksheet

/-- A source of random numbers. -/
structure RandomSource where
  /-- The fractions, from zero up to one. -/
  fraction : Nat → Binary64
  /-- The integers between two bounds, both included. -/
  integer : Nat → Int → Int → Int
  fractionsDrawn : Nat
  integersDrawn : Nat

namespace RandomSource

/-- The entry of a list that is used over and over. -/
def cycle (l : List α) (d : α) (n : Nat) : α :=
  l.getD (n % l.length) d

/-- A source that goes through given numbers again and again.  An integer is moved between the
bounds by its remainder. -/
def scripted (fractions : List Binary64) (integers : List Int) : RandomSource where
  fraction := cycle fractions (.ofInt 0)
  integer n low high := low + (cycle integers 0 n) % (high - low + 1)
  fractionsDrawn := 0
  integersDrawn := 0

/-- Draws a fraction. -/
def drawFraction : StateM RandomSource Binary64 := do
  let source ← get
  set { source with fractionsDrawn := source.fractionsDrawn + 1 }
  return source.fraction source.fractionsDrawn

/-- Draws an integer between two bounds. -/
def drawInteger (low high : Int) : StateM RandomSource Int := do
  let source ← get
  set { source with integersDrawn := source.integersDrawn + 1 }
  return source.integer source.integersDrawn low high

end RandomSource

end Worksheet
