import Worksheet.Number
import Worksheet.Sorting

/-!
# Cell addresses

An address names a column by letters and a row by a number: `B12`.  Columns count in letters without
a zero (`A` to `Z`, then `AA`), and rows start at one.  Inside, both count from zero.
-/

namespace Worksheet

/-- The position of a cell, both parts counted from zero. -/
structure Address where
  row : Nat
  col : Nat
deriving DecidableEq, Inhabited

namespace Address

/-- The letters `A` to `Z`. -/
def isColumnLetter (c : Char) : Bool :=
  'A' ≤ c && c ≤ 'Z'

/-- The index of a column that its letters name.  Any other character counts by its distance from
the letter before `A`. -/
def columnIndex (letters : List Char) : Int :=
  letters.foldl (fun index c => index * 26 + ((c.toNat : Int) - 64)) 0 - 1

/-- The letter for a digit from 0 to 25. -/
def columnLetter (digit : Nat) : Char :=
  Char.ofNat (65 + digit)

/-- The letters for a positive number in the system with the digits `A` = 1 to `Z` = 26. -/
def lettersOfPositive (n : Nat) : List Char :=
  if n = 0 then [] else lettersOfPositive ((n - 1) / 26) ++ [columnLetter ((n - 1) % 26)]
termination_by n
decreasing_by omega

/-- The letters of a column; none for a negative index. -/
def columnLetters (index : Int) : List Char :=
  lettersOfPositive (index + 1).toNat

/-- The characters of an address. -/
def chars (a : Address) : List Char :=
  lettersOfPositive (a.col + 1) ++ Decimal.digitChars (a.row + 1)

/-- The text of an address. -/
def text (a : Address) : String :=
  String.ofList a.chars

/-- The text of an address whose row can be written out. -/
def encode (a : Address) : Except Failure String := do
  let row ← Number.intText (a.row + 1)
  return String.ofList (lettersOfPositive (a.col + 1)) ++ row

/-- Splits a text into the letters of an address and the digits of its row, if it has that form: the
row does not start with a zero. -/
def split? (cs : List Char) : Option (List Char × List Char) :=
  let letters := cs.takeWhile isColumnLetter
  let digits := cs.dropWhile isColumnLetter
  match digits with
  | [] => none
  | d :: _ =>
    if letters.isEmpty || d == '0' || !digits.all Char.isDigit then none else some (letters, digits)

/-- The number that decimal digits stand for. -/
def rowOfDigits (digits : List Char) : Nat :=
  Decimal.ofDigits (digits.map fun d => d.toNat - 48)

/-- The position that a text names, if it is an address.  A row number has a bounded number of
digits. -/
def decode (s : String) : Except Failure (Option Address) :=
  match split? s.toList with
  | none => .ok none
  | some (letters, digits) =>
    if Number.maxDigits < digits.length then .error (.integerTooLongToRead digits.length)
    else .ok (some ⟨rowOfDigits digits - 1, (columnIndex letters).toNat⟩)

/-- Whether a position comes before another or is the same, rows first; what is no address comes
before all positions. -/
def rowMajorLE : Option Address → Option Address → Bool
  | none, _ => true
  | some _, none => false
  | some a, some b => a.row < b.row || (a.row == b.row && a.col ≤ b.col)

/-- Texts in row-major order of the addresses they name.  Texts that are no addresses come first, in
the order in which they stand. -/
def sortRowMajor (texts : List String) : Except Failure (List String) := do
  let keyed ← texts.mapM fun s => return (← decode s, s)
  return (sortedBy (fun a b => rowMajorLE a.1 b.1) keyed).map (·.2)

end Address

end Worksheet
