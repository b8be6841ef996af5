import Worksheet.Text.Digit
import Worksheet.Binary64.Basic

/-!
# Numerals

The written form of a number: a sign, digits with an optional point among them, and an optional
exponent.  Digits of any script count.  A numeral without point and exponent denotes an integer, any
other one the nearest binary64 number.
-/

namespace Worksheet.Decimal

/-- The parts of a numeral, digits by value. -/
structure Numeral where
  negative : Bool
  whole : List Nat
  fraction : Option (List Nat)
  exponent : Option Int
deriving DecidableEq

/-- The number that decimal digits stand for. -/
def ofDigits (ds : List Nat) : Nat :=
  ds.foldl (fun n d => 10 * n + d) 0

/-- The digits at the front of a text, and what follows them. -/
def spanDigits : List Char → List Nat × List Char
  | [] => ([], [])
  | c :: cs =>
    match Text.digitValue? c with
    | some d => let (ds, rest) := spanDigits cs; (d :: ds, rest)
    | none => ([], c :: cs)

/-- A sign at the front of a text: whether it is a minus, and what follows it. -/
def spanSign : List Char → Bool × List Char
  | '-' :: cs => (true, cs)
  | '+' :: cs => (false, cs)
  | cs => (false, cs)

/-- The exponent at the front of a text; empty if there is none with digits. -/
def exponentLexeme : List Char → List Char
  | e :: cs =>
    if e == 'e' || e == 'E' then
      let sign := match cs with
        | '+' :: _ => ['+']
        | '-' :: _ => ['-']
        | _ => []
      let digits := (cs.drop sign.length).takeWhile Char.isDigit
      if digits.isEmpty then [] else e :: (sign ++ digits)
    else []
  | [] => []

namespace Numeral

/-- Reads the end of a numeral: nothing, or an exponent. -/
def readExponent? : List Char → Option (Option Int)
  | [] => some none
  | c :: cs =>
    if c = 'e' || c = 'E' then
      let (negative, cs) := spanSign cs
      match spanDigits cs with
      | (d :: ds, []) =>
        let n : Int := ofDigits (d :: ds)
        some (some (if negative then -n else n))
      | _ => none
    else none

/-- Reads a whole text as a numeral. -/
def read? (cs : List Char) : Option Numeral :=
  let (negative, cs) := spanSign cs
  let (whole, cs) := spanDigits cs
  match cs with
  | '.' :: cs =>
    let (fraction, cs) := spanDigits cs
    if whole.isEmpty && fraction.isEmpty then none
    else (readExponent? cs).map (⟨negative, whole, some fraction, ·⟩)
  | cs =>
    if whole.isEmpty then none else (readExponent? cs).map (⟨negative, whole, none, ·⟩)

/-- Without point and exponent. -/
def isInteger (n : Numeral) : Bool :=
  n.fraction.isNone && n.exponent.isNone

/-- The integer that a numeral without point and exponent denotes. -/
def toInt (n : Numeral) : Int :=
  if n.negative then -(ofDigits n.whole : Int) else ofDigits n.whole

/-- The binary64 number nearest to the numeral. -/
def toBinary64 (n : Numeral) : Binary64 :=
  let fraction := n.fraction.getD []
  .ofDecimal n.negative (ofDigits (n.whole ++ fraction))
    (n.exponent.getD 0 - (fraction.length : Int))

end Numeral

end Worksheet.Decimal
