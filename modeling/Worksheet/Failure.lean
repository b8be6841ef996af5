import Worksheet.Formula.Arity
import Worksheet.Text.Quoted

/-!
# Failures

Everything that can go wrong between reading a formula and showing its value, as causes.  A failure
has a kind, by which callers tell failures apart, and a message for people.  The kind of a failed
reference is its own: the failure of the cell that was read is part of the message only.
-/

namespace Worksheet

/-- The categories of failure. -/
inductive FailureKind where
  | parse
  | unknownFunction
  | domain
  | arithmetic
  | value
  | reference
  | circular
deriving DecidableEq, Inhabited

/-- The name of a category, as results and events carry it. -/
def FailureKind.name : FailureKind → String
  | parse => "parse"
  | unknownFunction => "unknown_function"
  | domain => "domain"
  | arithmetic => "arithmetic"
  | value => "value"
  | reference => "reference"
  | circular => "circular"

/-- Why a calendar date does not exist. -/
inductive DateFault where
  | year (shown : String)
  | month
  | day
deriving DecidableEq

/-- What is wrong with a calendar date. -/
def DateFault.message : DateFault → String
  | year shown => "year " ++ shown ++ " is out of range"
  | month => "month must be in 1..12"
  | day => "day is out of range for month"

/-- A cause of failure.  Numbers and values are kept as the text that the message shows. -/
inductive Failure where
  /-- The text of a formula does not start with the equals sign. -/
  | noEqualsSign
  /-- No token starts with this character. -/
  | unexpectedCharacter (c : Char) (column : Nat)
  /-- A token at which no formula goes on. -/
  | unexpectedToken (terminal text : String) (column : Nat)
  /-- The formula nests deeper than evaluation goes. -/
  | tooDeep
  | unknownFunction (name : String)
  | wrongArgumentCount (function : String) (arity : Formula.Arity)
  /-- An integer with more digits than are written out. -/
  | integerTooLongToWrite
  /-- Text with more digits than are read as an integer. -/
  | integerTooLongToRead (digits : Nat)
  | invalidAddress (text : String)
  | coordinateNotInteger (axis shown : String)
  | coordinateNegative (axis shown : String)
  | noNumbers (function : String)
  | nothingToAverage
  | negativeRoot (shown : String)
  | logarithmOfNonPositive (shown : String)
  | remainderByZero
  | powerNotReal
  | emptyInterval (low high : String)
  | negativeCount (function shown : String)
  | startBeforeText (shown : String)
  | serialOutOfRange (function shown : String)
  | noSuchDate (fault : DateFault)
  | monthEndOutOfRange (year : String)
  | infinityToInteger
  | divisionByZero
  | resultOutOfRange
  | integerBeyondFloat
  | quotientBeyondFloat
  | powerBeyondFloat
  | complexPowerBeyondFloat
  | zeroToNegativePower
  | datePartTooGreat
  | datePartTooSmall
  | datePartTooLong
  | momentOutOfRange
  | notANumber (function : Option String) (shown : String)
  | notACondition (shown : String)
  | notADate (function shown : String)
  | rangeAsValue
  | rangeOutsideAggregate (first last : String)
  | cellTextAsNumber (shown : String)
  /-- A cell that a formula reads has failed. -/
  | failedCell (address : String) (cause : Failure)
  /-- A cell that is needed for its own value; the path returns to its first cell. -/
  | circular (path : List String)
deriving DecidableEq, Inhabited

namespace Failure

/-- The category of a failure. -/
def kind : Failure → FailureKind
  | noEqualsSign | unexpectedCharacter .. | unexpectedToken .. | tooDeep => .parse
  | unknownFunction _ | wrongArgumentCount .. => .unknownFunction
  | integerTooLongToWrite | integerTooLongToRead _ | invalidAddress _ | coordinateNotInteger ..
  | coordinateNegative .. | noNumbers _ | nothingToAverage | negativeRoot _
  | logarithmOfNonPositive _ | remainderByZero | powerNotReal | emptyInterval .. | negativeCount ..
  | startBeforeText _ | serialOutOfRange .. | noSuchDate _ | monthEndOutOfRange _ => .domain
  | infinityToInteger | divisionByZero | resultOutOfRange | integerBeyondFloat | quotientBeyondFloat
  | powerBeyondFloat | complexPowerBeyondFloat | zeroToNegativePower | datePartTooGreat
  | datePartTooSmall | datePartTooLong | momentOutOfRange => .arithmetic
  | notANumber .. | notACondition _ | notADate .. => .value
  | rangeAsValue | rangeOutsideAggregate .. | cellTextAsNumber _ | failedCell .. => .reference
  | circular _ => .circular

/-- The cells of a cycle in the order in which they read each other. -/
def cycleText (path : List String) : String :=
  "Circular cell reference: " ++ " -> ".intercalate path

/-- The message of a syntax error, with the position if it is known. -/
def syntaxText (problem : String) (position : Nat) : String :=
  "Formula parse error: " ++ problem ++ " (at position " ++ toString position ++ ")"

/-- The message of a failure. -/
def message : Failure → String
  | noEqualsSign => syntaxText "Formula must start with '='" 0
  | unexpectedCharacter c column =>
    syntaxText ("unexpected character " ++ Text.quoted c.toString) column
  | unexpectedToken terminal text column =>
    syntaxText ("unexpected Token(" ++ Text.quoted terminal ++ ", " ++ Text.quoted text ++ ")")
      column
  | tooDeep => "<recursion>"
  | unknownFunction name => "Unknown function: " ++ Text.quoted name
  | wrongArgumentCount function arity => function ++ " " ++ arity.requirement
  | integerTooLongToWrite =>
    "Exceeds the limit (4300 digits) for integer string conversion; " ++
      "use sys.set_int_max_str_digits() to increase the limit"
  | integerTooLongToRead digits =>
    "Exceeds the limit (4300 digits) for integer string conversion: value has " ++
      toString digits ++ " digits; use sys.set_int_max_str_digits() to increase the limit"
  | invalidAddress text => "Invalid cell address: " ++ Text.quoted text
  | coordinateNotInteger axis shown => axis ++ " must be an int, got " ++ shown
  | coordinateNegative axis shown => axis ++ " must be non-negative, got " ++ shown
  | noNumbers function => function ++ ": no numeric values"
  | nothingToAverage => "AVERAGE: no numeric values to average"
  | negativeRoot shown => "SQRT: negative argument " ++ shown
  | logarithmOfNonPositive shown => "LOG10: argument must be positive, got " ++ shown
  | remainderByZero => "MOD: division by zero"
  | powerNotReal => "POWER: result is not a real number"
  | emptyInterval low high =>
    "RANDBETWEEN: low bound " ++ low ++ " exceeds high bound " ++ high
  | negativeCount function shown =>
    function ++ ": character count must be non-negative, got " ++ shown
  | startBeforeText shown => "MID: start must be at least 1, got " ++ shown
  | serialOutOfRange function shown => function ++ ": invalid date serial number " ++ shown
  | noSuchDate fault => "DATE: invalid date: " ++ fault.message
  | monthEndOutOfRange year => "EOMONTH: year " ++ year ++ " out of range"
  | infinityToInteger => "cannot convert float infinity to integer"
  | divisionByZero => "Division by zero in formula"
  | resultOutOfRange => "Numeric result out of range"
  | integerBeyondFloat => "int too large to convert to float"
  | quotientBeyondFloat => "integer division result too large for a float"
  | powerBeyondFloat => "(34, 'Numerical result out of range')"
  | complexPowerBeyondFloat => "complex exponentiation"
  | zeroToNegativePower => "0.0 cannot be raised to a negative power"
  | datePartTooGreat => "signed integer is greater than maximum"
  | datePartTooSmall => "signed integer is less than minimum"
  | datePartTooLong => "Python int too large to convert to C long"
  | momentOutOfRange => "date value out of range"
  | notANumber function shown =>
    (match function with
      | some name => name ++ ": "
      | none => "") ++ "expected a number, got " ++ shown
  | notACondition shown => "Cannot use " ++ shown ++ " as a condition"
  | notADate function shown => function ++ ": cannot read " ++ shown ++ " as a date"
  | rangeAsValue => "A range cannot be used as a cell value"
  | rangeOutsideAggregate first last =>
    "Range " ++ first ++ ":" ++ last ++ " is only valid inside an aggregate function"
  | cellTextAsNumber shown => "Cell text " ++ shown ++ " used as a number"
  | failedCell address cause =>
    "Referenced cell " ++ address ++ " has an error: " ++ cause.message
  | circular path => cycleText path

end Failure

end Worksheet
