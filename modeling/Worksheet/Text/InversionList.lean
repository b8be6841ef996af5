/-!
# Sets of characters as inversion lists

A character property of the Unicode standard is a set of code points.  The set is kept as the sorted
list of the points where membership changes: a code point belongs to it when the number of changes
at or below it is odd.  Membership is then one binary search.
-/

namespace Worksheet.Text

/-- A set of code points, given by the sorted points at which membership changes. -/
structure InversionList where
  changes : Array Nat

namespace InversionList

/-- Number of entries of `changes` at or below `c`, looked for between `low` and `high`.  Each step
halves the interval, so a number of steps above the logarithm of its length is enough. -/
def rank (changes : Array Nat) (c : Nat) : (steps low high : Nat) → Nat
  | 0, low, _ => low
  | steps + 1, low, high =>
    if low < high then
      let middle := (low + high) / 2
      if changes.getD middle 0 ≤ c then rank changes c steps (middle + 1) high
      else rank changes c steps low middle
    else low

/-- Membership of a code point. -/
def contains (s : InversionList) (c : Nat) : Bool :=
  rank s.changes c (s.changes.size.log2 + 2) 0 s.changes.size % 2 == 1

end InversionList

end Worksheet.Text
