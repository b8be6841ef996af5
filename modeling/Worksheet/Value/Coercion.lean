import Worksheet.Value.Basic
import Worksheet.Text.Blank
import Worksheet.Text.Case

/-!
# Reading values as numbers, text and conditions

The rules by which any value is taken for a number, a text or a truth value.  A `Scalar` is what a
formula computes with: a number, a truth value, a text, or text that was read from a cell.  Text
from a cell counts as zero in arithmetic, unless evaluation is strict, while any other text has to
be numeric.
-/

namespace Worksheet

/-- The number that a text stands for: a numeral with any blanks around it, if it is finite. -/
def numberOfText? (s : String) : Except Failure (Option Number) :=
  match Decimal.Numeral.read? (Text.trimBlanks s.toList) with
  | none => .ok none
  | some numeral => do
    let n ← Number.ofNumeral numeral
    return if n.isFinite then some n else none

/-- The number that a truth value counts as. -/
def numberOfBool (b : Bool) : Number :=
  .int (if b then 1 else 0)

/-- The text of a truth value. -/
def textOfBool (b : Bool) : String :=
  if b then "TRUE" else "FALSE"

/-- The truth value that a text names, in any case. -/
def conditionOfText? (s : String) : Option Bool :=
  let name := Text.upper s
  if name = "TRUE" then some true else if name = "FALSE" then some false else none

/-- What a formula computes with. -/
inductive Scalar where
  | number (n : Number)
  | bool (b : Bool)
  | text (s : String)
  /-- Text that was read from a cell. -/
  | cellText (s : String)
deriving DecidableEq, Inhabited

namespace Scalar

/-- The value of a result; text from a cell is plain text there. -/
def toValue : Scalar → Value
  | number n => .number n
  | bool b => .bool b
  | text s => .text s
  | cellText s => .text s

/-- The scalar as text. -/
def toText : Scalar → Except Failure String
  | number n => n.text
  | bool b => .ok (textOfBool b)
  | text s => .ok s
  | cellText s => .ok s

/-- The scalar as an operand of arithmetic.  `function` names the function that asks. -/
def asNumber (strict : Bool) (function : Option String) : Scalar → Except Failure Number
  | number n => if n.isFinite then .ok n else do throw (.notANumber function (← n.exactText))
  | bool b => .ok (numberOfBool b)
  | text s => do
    match ← numberOfText? s with
    | some n => return n
    | none => throw (.notANumber function (Text.quoted s))
  | cellText s =>
    if strict then .error (.cellTextAsNumber (Text.quoted s)) else .ok (.int 0)

/-- The scalar as a condition: a number other than zero, a truth value, or text that names one. -/
def asCondition : Scalar → Except Failure Bool
  | number n => .ok !n.isZero
  | bool b => .ok b
  | text s =>
    match conditionOfText? s with
    | some b => .ok b
    | none => .error (.notACondition (Text.quoted s))
  | cellText s => .ok ((conditionOfText? s).getD false)

end Scalar

namespace Value

/-- The number that a value counts as, if it is a finite one. -/
def number? : Value → Except Failure (Option Number)
  | bool b => .ok (some (numberOfBool b))
  | number n => .ok (if n.isFinite then some n else none)
  | text s => numberOfText? s
  | _ => .ok none

/-- The value as text that can be joined to other text. -/
def toText : Value → Except Failure String
  | null => .ok ""
  | bool b => .ok (textOfBool b)
  | number n => n.text
  | text s => .ok s
  | stamp shown _ => .ok shown
  | v => v.quoted

/-- The value as it is displayed. -/
def display : Value → Except Failure String
  | number n => n.displayText
  | v => v.toText

/-- The value as a scalar, if it is one. -/
def scalar? : Value → Option Scalar
  | bool b => some (.bool b)
  | number n => some (.number n)
  | text s => some (.text s)
  | _ => none

/-- The value as an operand of arithmetic. -/
def asNumber (strict : Bool) (function : Option String) (v : Value) : Except Failure Number :=
  match v, v.scalar? with
  | list _, _ => .error .rangeAsValue
  | _, some s => s.asNumber strict function
  | v, none => do throw (.notANumber function (← v.quoted))

/-- The value as a condition. -/
def asCondition : Value → Except Failure Bool
  | null => .ok false
  | bool b => .ok b
  | number n => .ok !n.isZero
  | text s => (Scalar.text s).asCondition
  | list _ => .error .rangeAsValue
  | dict entries => .ok !entries.isEmpty
  | stamp .. => .ok true

/-- Refuses a number that is not finite, and passes any other value. -/
def checked : Value → Except Failure Value
  | number n => n.checked.map number
  | v => .ok v

/-- What a formula reads in a cell: a number where the value counts as one, zero for an empty cell,
and text from a cell for anything else. -/
def toScalar (v : Value) : Except Failure Scalar := do
  if v.isEmpty then return .number (.int 0)
  match ← v.number? with
  | some n => return .number n
  | none => return .cellText (← v.toText)

end Value

end Worksheet
