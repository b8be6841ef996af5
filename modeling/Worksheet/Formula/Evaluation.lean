import Worksheet.Formula.Dialogue
import Worksheet.Formula.Function.Basic
import Worksheet.Formula.Parser
import Worksheet.Rectangle
import Worksheet.Cells

/-!
# Evaluating formulas

The value of an expression, as a dialogue that asks for the cells it reads.  Operands are evaluated
from left to right and each is read as a number before the next one is looked at, so the first
failure is the one reported.  Only the conditional functions leave an argument unevaluated or catch
its failure.
-/

namespace Worksheet.Formula

/-- What the evaluation of a formula depends on besides cells and random numbers. -/
structure Setting where
  /-- Whether text from a cell is refused in arithmetic. -/
  strict : Bool
  clock : Moment
  /-- How deeply evaluation nests, if that is bounded. -/
  limit : Option Nat
  /-- The addresses that can hold a value. -/
  keys : List String

/-- How many levels of nesting an operand of an operator adds. -/
def operandCost : Nat := 1

/-- How many levels of nesting an argument of a function adds. -/
def argumentCost : Nat := 3

/-- How many levels of nesting an argument adds that may be a range or may fail. -/
def guardedCost : Nat := 4

/-- How many levels of nesting the formula of a cell adds that is read. -/
def cellCost : Nat := 9

/-- How many levels of nesting the formula of a cell adds that is read as part of a range. -/
def rangeCost : Nat := 13

/-- How many levels less than the formula of a cell it takes to tell that it fails. -/
def reportCost : Nat := 1

/-! ## Literals -/

/-- The number that a number token stands for.  One with a point or an exponent has to be finite. -/
def numberLiteral (text : String) : Except Failure Number :=
  match Decimal.Numeral.read? text.toList with
  | some numeral => do (← Number.ofNumeral numeral).checked
  | none => .error (.notANumber none (Text.quoted text))

/-- Replaces pairs of characters by single ones, from left to right. -/
def replacePairs (first second replacement : Char) : List Char → List Char
  | a :: b :: cs =>
    if a = first && b = second then replacement :: replacePairs first second replacement cs
    else a :: replacePairs first second replacement (b :: cs)
  | cs => cs

/-- The text that a string token stands for: the quotes are dropped, an escaped quote becomes a
quote, and after that a doubled backslash a single one. -/
def textLiteral (literal : String) : String :=
  String.ofList
    (replacePairs '\\' '\\' '\\' (replacePairs '\\' '"' '"' (literal.toList.drop 1).dropLast))

/-! ## Order of values -/

/-- The order of scalars: numbers before text before truth values.  Text is compared without regard
to case. -/
def compareScalars (a b : Scalar) : Ordering :=
  let rank : Scalar → Nat
    | .number _ => 0
    | .text _ | .cellText _ => 1
    | .bool _ => 2
  let key : Scalar → String
    | .text s | .cellText s => Text.lower s
    | _ => ""
  match a, b with
  | .number m, .number n => (m.compare? n).getD .eq
  | .bool p, .bool q => compare p q
  | a, b => (compare (rank a) (rank b)).then (compare (key a) (key b))

/-- Whether a comparison holds of two values in the given order. -/
def Comparison.holds : Comparison → Ordering → Bool
  | greater, o => o == .gt
  | less, o => o == .lt
  | greaterEqual, o => o != .lt
  | lessEqual, o => o != .gt
  | equal, o => o == .eq
  | notEqual, o => o != .eq

/-! ## Operators -/

/-- An operator of arithmetic. -/
def arithmetic? : BinaryOp → Option (Number → Number → Except Failure Number)
  | .add => some Number.add
  | .sub => some Number.sub
  | .mul => some Number.mul
  | .div => some Number.div
  | .pow => some Number.power
  | _ => none

/-- The sum, difference, product, quotient or power of two numbers, which has to be finite. -/
def compute (op : Number → Number → Except Failure Number) (m n : Number) :
    Except Failure Scalar := do
  return .number (← (← op m n).checked)

/-- A number with a sign in front. -/
def SignOp.apply : SignOp → Number → Number
  | neg, n => n.neg
  | pos, n => n

/-! ## Ranges -/

/-- The values in a range that can be populated, row-major. -/
def readRange (s : Setting) (depth : Nat) (first last : String)
    (use : Value → Except Failure (Option α)) : Evaluation (List α) := do
  let r ← Evaluation.ofExcept (Rectangle.ofTexts first last)
  let addresses ← Evaluation.ofExcept (r.populated s.keys)
  let found ← addresses.mapM fun address => do
    let v ← Evaluation.readCell depth address
    Evaluation.ofExcept (use v)
  return found.filterMap id

/-- The numbers in a range.  Cells that do not count as a number are passed over. -/
def readNumbers (s : Setting) (depth : Nat) (first last : String) : Evaluation (List Number) :=
  readRange s depth first last Value.number?

/-- The values in a range that are not empty. -/
def readFilled (s : Setting) (depth : Nat) (first last : String) : Evaluation (List Value) :=
  readRange s depth first last fun v => .ok (if v.isEmpty then none else some v)

/-- The range that an argument of an aggregate is taken for.  Where presence is counted, a single
cell is a range as well. -/
def rangeArgument? (f : Aggregate) : Expr → Option (String × String)
  | .range first last => some (first, last)
  | .cell address => if f = .countAll then some (address, address) else none
  | _ => none

/-- What a range contributes to an aggregate. -/
def readArgument (s : Setting) (depth : Nat) (f : Aggregate) (first last : String) :
    Evaluation Argument :=
  if f = .countAll then return .filled (← readFilled s depth first last).length
  else return .numbers (← readNumbers s depth first last)

/-! ## Functions -/

/-- Draws the value of a random function. -/
def RandomFunction.draw (strict : Bool) (f : RandomFunction) (args : List Scalar) :
    Evaluation Scalar := do
  if !f.arity.accepts args.length then throw (.wrongArgumentCount f.name f.arity)
  match f, ← Evaluation.ofExcept (args.mapM (Scalar.asNumber strict (some f.name))) with
  | .between, [low, high] => do
    let low ← Evaluation.ofExcept low.ceil
    let high ← Evaluation.ofExcept high.floor
    if high < low then
      let lowText ← Evaluation.ofExcept (Number.intText low)
      let highText ← Evaluation.ofExcept (Number.intText high)
      throw (.emptyInterval lowText highText)
    return .number (.int (← Evaluation.drawInteger low high))
  | _, _ => return .number (.float (← Evaluation.drawFraction))

/-- The value of a function whose arguments have been evaluated. -/
def Function.apply (s : Setting) (f : Function) (args : List Scalar) : Evaluation Scalar :=
  match f with
  | .math f => Evaluation.ofExcept (f.apply s.strict args)
  | .logical f => Evaluation.ofExcept (f.apply args)
  | .text f => Evaluation.ofExcept (f.apply s.strict args)
  | .date f => Evaluation.ofExcept (f.apply s.strict s.clock args)
  | .random f => f.draw s.strict args
  | .aggregate f => Evaluation.ofExcept (f.apply s.strict (args.map Argument.one))
  | .conditional f => throw f.misuse

/-- Whether a level of nesting is beyond the limit. -/
def Setting.exceeds (s : Setting) (depth : Nat) : Bool :=
  match s.limit with
  | some limit => limit < depth
  | none => false

/-- Whether a level of nesting is so far beyond the limit that it cannot be told of a formula there
that it fails. -/
def Setting.breaksOff (s : Setting) (depth : Nat) : Bool :=
  s.exceeds (depth - reportCost)

mutual

/-- The value of an expression at a level of nesting. -/
def eval (s : Setting) (depth : Nat) (e : Expr) : Evaluation Scalar :=
  if s.exceeds depth then throw .tooDeep
  else
    match e with
    | .number text => do return .number (← Evaluation.ofExcept (numberLiteral text))
    | .bool b => return .bool b
    | .text literal => return .text (textLiteral literal)
    | .cell address => do
      let v ← Evaluation.readCell (depth + cellCost) address
      Evaluation.ofExcept v.toScalar
    | .range first last => throw (.rangeOutsideAggregate first last)
    | .sign op e => do
      let v ← eval s (depth + operandCost) e
      let n ← Evaluation.ofExcept (v.asNumber s.strict none)
      return .number (op.apply n)
    | .percent e => do
      let v ← eval s (depth + operandCost) e
      let n ← Evaluation.ofExcept (v.asNumber s.strict none)
      return .number (← Evaluation.ofExcept n.percent)
    | .binary op left right =>
      match arithmetic? op with
      | some f => do
        let l ← eval s (depth + operandCost) left
        let m ← Evaluation.ofExcept (l.asNumber s.strict none)
        let r ← eval s (depth + operandCost) right
        let n ← Evaluation.ofExcept (r.asNumber s.strict none)
        Evaluation.ofExcept (compute f m n)
      | none => do
        let l ← eval s (depth + operandCost) left
        let r ← eval s (depth + operandCost) right
        match op with
        | .compare c => return .bool (c.holds (compareScalars l r))
        | _ => do
          let front ← Evaluation.ofExcept l.toText
          let back ← Evaluation.ofExcept r.toText
          return .text (front ++ back)
    | .call opener args => do
      let name := nameOfOpener opener
      match Function.named? name with
      | none => throw (.unknownFunction name)
      | some (.conditional .ifThen) => evalIfThen s depth args
      | some (.conditional .ifError) => evalIfError s depth args
      | some (.conditional .isError) => evalIsError s depth args
      | some (.aggregate f) => do
        let args ← evalArguments s depth f args
        Evaluation.ofExcept (f.apply s.strict args)
      | some f => do f.apply s (← evalAll s depth args)

/-- The values of all arguments of a call. -/
def evalAll (s : Setting) (depth : Nat) : List Expr → Evaluation (List Scalar)
  | [] => return []
  | e :: es => do
    let v ← eval s (depth + argumentCost) e
    return v :: (← evalAll s depth es)

/-- The arguments of an aggregate. -/
def evalArguments (s : Setting) (depth : Nat) (f : Aggregate) :
    List Expr → Evaluation (List Argument)
  | [] => return []
  | e :: es => do
    let first : Argument ← match rangeArgument? f e with
      | some (first, last) => readArgument s (depth + rangeCost) f first last
      | none => Argument.one <$> eval s (depth + guardedCost) e
    return first :: (← evalArguments s depth f es)

/-- A condition, the value if it holds, and the value if it does not, which is false if it is left
out. -/
def evalIfThen (s : Setting) (depth : Nat) : List Expr → Evaluation Scalar
  | [condition, yes] => do
    let v ← eval s (depth + argumentCost) condition
    if ← Evaluation.ofExcept v.asCondition then eval s (depth + argumentCost) yes
    else return .bool false
  | [condition, yes, no] => do
    let v ← eval s (depth + argumentCost) condition
    if ← Evaluation.ofExcept v.asCondition then eval s (depth + argumentCost) yes
    else eval s (depth + argumentCost) no
  | _ => throw Conditional.ifThen.misuse

/-- A value, or another one if the first fails. -/
def evalIfError (s : Setting) (depth : Nat) : List Expr → Evaluation Scalar
  | [value, fallback] => do
    match ← (eval s (depth + guardedCost) value).attempt with
    | some v => return v
    | none => eval s (depth + argumentCost) fallback
  | _ => throw Conditional.ifError.misuse

/-- Whether a value fails. -/
def evalIsError (s : Setting) (depth : Nat) : List Expr → Evaluation Scalar
  | [value] => do return .bool (← (eval s (depth + guardedCost) value).attempt).isNone
  | _ => throw Conditional.isError.misuse

end

/-! ## Results -/

/-- The outcome of evaluating a cell: its value or why it has none. -/
abbrev Outcome := Except Failure Value

/-- The text that stands for the value of a failed cell. -/
def errorText : String := "#ERROR!"

/-- The value that a cell shows. -/
def Outcome.shown : Outcome → Value
  | .ok v => v
  | .error _ => .text errorText

/-- The outcome of a formula's text at a level of nesting. -/
def outcomeAt (s : Setting) (depth : Nat) (text : String) : Dialogue Outcome :=
  (do
    let e ← Evaluation.ofExcept (parse text)
    return (← eval s depth e).toValue : Evaluation Value).run

/-- Holds a dialogue with the values of plain cells. -/
def Dialogue.answeredBy (cells : Cells) {α : Type} (d : Dialogue α) : StateM RandomSource α :=
  d.run (fun address _ => return .ok (cells.get address)) RandomSource.drawFraction
    RandomSource.drawInteger

/-- The outcome of an input among plain cells.  What is no formula is its own value. -/
def evaluate (strict : Bool) (clock : Moment) (limit : Option Nat) (cells : Cells) (input : Value) :
    StateM RandomSource Outcome :=
  match input.formula? with
  | none => return .ok input
  | some text => (outcomeAt ⟨strict, clock, limit, cells.keys⟩ 0 text).answeredBy cells

end Worksheet.Formula
