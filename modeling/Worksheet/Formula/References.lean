import Worksheet.Address.Basic
import Worksheet.Text.Word
import Worksheet.Text.Blank

/-!
# References in a formula's text

Which cells and ranges a text names, found without parsing it.  The text is cut into words, which
are maximal runs of word characters, and single other characters.  A cell is named by a word of
capital letters and digits, unless a parenthesis follows, which makes it the name of a function.
Nothing is validated, and text between quotes counts like any other.
-/

namespace Worksheet.Formula

/-- A piece of a text: a whole word, or one character that belongs to none. -/
inductive Piece where
  | word (cs : List Char)
  | other (c : Char)
deriving DecidableEq

namespace Piece

/-- Adds a character in front of the pieces of what follows it. -/
def push (c : Char) : List Piece → List Piece
  | word cs :: rest => if Text.isWord c then word (c :: cs) :: rest else other c :: word cs :: rest
  | rest => if Text.isWord c then word [c] :: rest else other c :: rest

/-- The pieces of a text. -/
def split : List Char → List Piece
  | [] => []
  | c :: cs => push c (split cs)

end Piece

/-- Capital letters followed by digits, at least one of each. -/
def isCellWord (cs : List Char) : Bool :=
  let letters := cs.takeWhile Address.isColumnLetter
  let digits := cs.dropWhile Address.isColumnLetter
  !letters.isEmpty && !digits.isEmpty && digits.all Char.isDigit

/-- Whether an opening parenthesis comes next, blanks aside. -/
def opensCall : List Piece → Bool
  | .other c :: rest => if Text.isBlank c then opensCall rest else c == '('
  | _ => false

/-- The cell words of a text that name no function, in order. -/
def cellWords : List Piece → List (List Char)
  | [] => []
  | .word w :: rest =>
    if isCellWord w && !opensCall rest then w :: cellWords rest else cellWords rest
  | .other _ :: rest => cellWords rest

/-- The pairs of cell words with nothing but a colon between them, in order and without overlap. -/
def rangeWords : List Piece → List (List Char × List Char)
  | .word a :: .other c :: .word b :: rest =>
    if c = ':' && isCellWord a && isCellWord b then (a, b) :: rangeWords rest
    else rangeWords (.other c :: .word b :: rest)
  | _ :: rest => rangeWords rest
  | [] => []

/-- The cells that a text names, in order of first occurrence. -/
def referencedCells (text : String) : List String :=
  (cellWords (Piece.split text.toList)).map String.ofList |>.eraseDups

/-- The ranges that a text names, in order of first occurrence. -/
def referencedRanges (text : String) : List (String × String) :=
  (rangeWords (Piece.split text.toList)).map (fun (a, b) => (String.ofList a, String.ofList b))
    |>.eraseDups

end Worksheet.Formula
