/-!
# Blank characters

White space is the set of space separators together with the controls that end a line, a paragraph
or a field.  Text is trimmed and split into words by this set.
-/

namespace Worksheet.Text

/-- White space: tab to carriage return, the four separator controls, the space, next line, and the
space, line and paragraph separators beyond ASCII. -/
def isBlank (c : Char) : Bool :=
  let n := c.toNat
  (0x9 ≤ n && n ≤ 0xd) || (0x1c ≤ n && n ≤ 0x20) || n == 0x85 || n == 0xa0 || n == 0x1680 ||
    (0x2000 ≤ n && n ≤ 0x200a) || n == 0x2028 || n == 0x2029 || n == 0x202f || n == 0x205f ||
    n == 0x3000

/-- The text without the blanks at its end. -/
def trimRight (cs : List Char) : List Char :=
  (cs.reverse.dropWhile isBlank).reverse

/-- The text without the blanks at both ends. -/
def trimBlanks (cs : List Char) : List Char :=
  trimRight (cs.dropWhile isBlank)

/-- Splits off words: `word` holds the characters of the word being read, last one first. -/
def splitWords (word : List Char) : List Char → List (List Char)
  | [] => if word.isEmpty then [] else [word.reverse]
  | c :: cs =>
    if isBlank c then
      if word.isEmpty then splitWords [] cs else word.reverse :: splitWords [] cs
    else splitWords (c :: word) cs

/-- The maximal runs of characters that are not blank. -/
def words (cs : List Char) : List (List Char) :=
  splitWords [] cs

/-- The text without the blanks at both ends. -/
def strip (s : String) : String :=
  String.ofList (trimBlanks s.toList)

end Worksheet.Text
