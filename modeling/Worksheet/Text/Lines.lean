/-!
# Lines

Text is cut into lines at every character that ends one: line feed, carriage return, or both in this
order, vertical tab, form feed, three of the separator controls, next line, and the line and
paragraph separators.
-/

namespace Worksheet.Text

/-- A character that ends a line. -/
def isLineEnd (c : Char) : Bool :=
  let n := c.toNat
  (0xa ≤ n && n ≤ 0xd) || (0x1c ≤ n && n ≤ 0x1e) || n == 0x85 || n == 0x2028 || n == 0x2029

/-- Cuts lines: `line` holds the characters of the line being read, last one first. -/
def splitLines (line : List Char) : List Char → List (List Char)
  | [] => if line.isEmpty then [] else [line.reverse]
  | '\r' :: '\n' :: cs => line.reverse :: splitLines [] cs
  | c :: cs => if isLineEnd c then line.reverse :: splitLines [] cs else splitLines (c :: line) cs

/-- The lines of a text, without the characters that end them. -/
def lines (cs : List Char) : List (List Char) :=
  splitLines [] cs

end Worksheet.Text
