import Worksheet.Decimal.Shortest

/-!
# Decimal text of numbers

How digits are laid out.  A number whose leading digit has an exponent from -4 up to a bound is
written with a point in place, any other with an exponent of at least two digits and a sign.  Two
layouts are in use: the exact one, whose text reads back as the same number, and the brief one for
display, with ten digits.
-/

namespace Worksheet.Decimal

/-- The decisions of a layout: from which exponent of the leading digit on a number is written with
an exponent, and whether a whole number keeps `.0`. -/
structure Layout where
  plainBelow : Int
  pointZero : Bool

/-- Exact text: `0.1`, `100.0`, `1e+16`. -/
def Layout.exact : Layout := ⟨16, true⟩

/-- Brief text for display: `0.1`, `1e+10`. -/
def Layout.brief : Layout := ⟨10, false⟩

/-- The decimal digits of a natural number. -/
def digitChars (n : Nat) : List Char :=
  Nat.toDigits 10 n

/-- `count` zeros. -/
def zeros (count : Nat) : List Char :=
  List.replicate count '0'

/-- The exponent with its sign and at least two digits. -/
def exponentChars (e : Int) : List Char :=
  let digits := digitChars e.natAbs
  'e' :: (if e < 0 then '-' else '+') :: (zeros (2 - digits.length) ++ digits)

/-- The text of a decimal without sign. -/
def Layout.write (layout : Layout) (d : Digits) : List Char :=
  let digits := digitChars d.digits
  let lead : Int := digits.length + d.exponent - 1
  if lead < -4 || layout.plainBelow ≤ lead then
    match digits with
    | [] => []
    | [first] => first :: exponentChars lead
    | first :: rest => first :: '.' :: (rest ++ exponentChars lead)
  else if lead < 0 then
    '0' :: '.' :: (zeros (-1 - lead).toNat ++ digits)
  else if 0 ≤ d.exponent then
    digits ++ zeros d.exponent.toNat ++ (if layout.pointZero then ['.', '0'] else [])
  else
    digits.take (lead + 1).toNat ++ '.' :: digits.drop (lead + 1).toNat

/-- The text of a number, with digits chosen by `choose`. -/
def write (layout : Layout) (choose : Nat → Digits) : Binary64 → String
  | .finite negative units =>
    String.ofList ((if negative then ['-'] else []) ++ layout.write (choose units))
  | .infinite negative => if negative then "-inf" else "inf"
  | .nan => "nan"

/-- The shortest text that reads back as the number. -/
def exactText (x : Binary64) : String :=
  write .exact shortest x

/-- The text with ten significant digits. -/
def briefText (x : Binary64) : String :=
  write .brief (significant 10) x

end Worksheet.Decimal
