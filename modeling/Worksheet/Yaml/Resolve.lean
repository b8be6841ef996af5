import Worksheet.Yaml.Node
import Worksheet.Yaml.Timestamp

/-!
# Values of YAML documents

What a plain scalar stands for: null, a truth value, a number in base ten, two, eight, sixteen or
sixty, a date or time, or else its text.  A quoted scalar is always text.
-/

namespace Worksheet.Yaml

/-- Why a document has no value. -/
inductive Fault where
  /-- The text is no document that can be read. -/
  | malformed
  /-- A number without digits in a base. -/
  | noDigits (base : Nat)
  /-- An integer with more digits than are read. -/
  | integerTooLong (digits : Nat)
  | time (fault : TimeFault)
deriving DecidableEq

/-- What is wrong with a document whose text is well-formed. -/
def Fault.message : Fault → String
  | malformed => "malformed document"
  | noDigits base => "invalid literal for int() with base " ++ toString base ++ ": ''"
  | integerTooLong digits => (Failure.integerTooLongToRead digits).message
  | time fault => fault.message

/-! ## Numbers -/

/-- The number that digits in a base stand for; an underscore counts for nothing. -/
def inBase? (base : Nat) (cs : List Char) : Option (Except Fault Nat) := do
  let ds ← (cs.filter (· ≠ '_')).mapM fun c =>
    (Text.hexValue? c).bind fun d => if d < base then some d else none
  return if ds.isEmpty then .error (.noDigits base)
    else .ok (ds.foldl (fun n d => base * n + d) 0)

/-- Splits a text at colons. -/
def splitColons : List Char → List (List Char)
  | [] => [[]]
  | ':' :: cs => [] :: splitColons cs
  | c :: cs =>
    match splitColons cs with
    | part :: parts => (c :: part) :: parts
    | [] => [[c]]

/-- Whether a text is a digit up to 5, if there are two digits, and a digit. -/
def isSixtieth : List Char → Bool
  | [d] => d.isDigit
  | [d, e] => '0' ≤ d && d ≤ '5' && e.isDigit
  | _ => false

/-- Digits and underscores that start with a digit. -/
def isDigits (cs : List Char) : Bool :=
  match cs with
  | c :: _ => c.isDigit && cs.all fun c => c.isDigit || c == '_'
  | [] => false

/-- The integer that a text without sign is written as. -/
def magnitude? (cs : List Char) : Option (Except Fault Nat) :=
  let decimal (cs : List Char) : Except Fault Nat :=
    let ds := cs.filter (· ≠ '_')
    if Number.maxDigits < ds.length then .error (.integerTooLong ds.length)
    else .ok (Decimal.ofDigits (ds.map fun c => c.toNat - 48))
  match cs with
  | '0' :: 'b' :: ds => if ds.isEmpty then none else inBase? 2 ds
  | '0' :: 'x' :: ds => if ds.isEmpty then none else inBase? 16 ds
  | '0' :: ds => inBase? 8 ('0' :: ds)
  | cs =>
    match splitColons cs with
    | [whole] => if isDigits whole then some (decimal whole) else none
    | whole :: parts =>
      if isDigits whole && parts.all isSixtieth then
        some do
          let parts ← (whole :: parts).mapM decimal
          return parts.foldl (fun n d => 60 * n + d) 0
      else none
    | [] => none

/-- The integer that a text is written as. -/
def integer? (cs : List Char) : Option (Except Fault Int) :=
  let (negative, digits) := Decimal.spanSign cs
  (magnitude? digits).map fun n => n.map fun n => if negative then -(n : Int) else n

/-- The binary64 number that a text with a point is written as. -/
def float? (cs : List Char) : Option Binary64 :=
  let (negative, body) := Decimal.spanSign cs
  let signed (x : Binary64) : Binary64 := if negative then -x else x
  let name := String.ofList body
  if name = ".inf" || name = ".Inf" || name = ".INF" then some (.infinite negative)
  else if cs = body && (name = ".nan" || name = ".NaN" || name = ".NAN") then some .nan
  else
    let whole := body.takeWhile fun c => c != '.'
    match body.drop whole.length with
    | '.' :: rest =>
      let fraction := rest.takeWhile fun c => c.isDigit || c == '_'
      let exponent := rest.drop fraction.length
      let clean := body.filter (· ≠ '_')
      let isExponent := match exponent with
        | [] => true
        | e :: sign :: ds =>
          (e == 'e' || e == 'E') && (sign == '+' || sign == '-') && !ds.isEmpty &&
            ds.all Char.isDigit
        | _ => false
      let isFraction := if whole.isEmpty then cs = body && isDigits fraction else isDigits whole
      if isFraction && isExponent then
        (Decimal.Numeral.read? clean).map fun n => signed n.toBinary64
      else
        match splitColons whole with
        | first :: part :: parts =>
          if isDigits first && (part :: parts).all isSixtieth && exponent.isEmpty then do
            let last ← Decimal.Numeral.read?
              (((part :: parts).getLast?.getD []) ++ '.' :: fraction.filter (· ≠ '_'))
            let upper := (first.filter (· ≠ '_')) :: (part :: parts).dropLast
            let (sum, _) := upper.foldr
              (fun ds (sum, base) =>
                (sum + Binary64.ofInt (Decimal.ofDigits (ds.map fun c => c.toNat - 48)) *
                  Binary64.ofInt base, base * 60))
              (Binary64.ofInt 0 + last.toBinary64 * Binary64.ofInt 1, (60 : Int))
            return signed sum
          else none
        | _ => none
    | _ => none

/-! ## Scalars -/

/-- The names of truth values. -/
def conditions : List (String × Bool) :=
  [("yes", true), ("Yes", true), ("YES", true), ("no", false), ("No", false), ("NO", false),
    ("true", true), ("True", true), ("TRUE", true), ("false", false), ("False", false),
    ("FALSE", false), ("on", true), ("On", true), ("ON", true), ("off", false), ("Off", false),
    ("OFF", false)]

/-- The spellings of null. -/
def nulls : List String := ["", "~", "null", "Null", "NULL"]

/-- The value of a plain scalar.  Two spellings are reserved. -/
def resolve (cs : List Char) : Except Fault Value :=
  let s := String.ofList cs
  if nulls.contains s then .ok .null
  else if s = "=" || s = "<<" then .error .malformed
  else
    match conditions.lookup s with
    | some b => .ok (.bool b)
    | none =>
      match float? cs with
      | some x => .ok (.number (.float x))
      | none =>
        match integer? cs with
        | some i => i.map fun i => .number (.int i)
        | none =>
          match Timestamp.ofText? cs with
          | some t => t.value.mapError .time
          | none => .ok (.text s)

/-! ## Collections -/

/-- The number that a value counts as where keys are compared. -/
def keyNumber? : Value → Option Number
  | .bool b => some (.int (if b then 1 else 0))
  | .number n => some n
  | _ => none

/-- The date or time that a value is. -/
def timestamp? : Value → Option Timestamp
  | .stamp shown _ => Timestamp.ofText? shown.toList
  | _ => none

/-- Whether two values are the same key of a mapping: numbers and truth values are compared by
number, what is no number is the same as itself, and times are compared in universal time. -/
def sameKey (a b : Value) : Bool :=
  match a, b with
  | .null, .null => true
  | .text s, .text t => s == t
  | .stamp .., .stamp .. =>
    match timestamp? a, timestamp? b with
    | some s, some t => s.kind = t.kind && s.position == t.position
    | _, _ => false
  | a, b =>
    match keyNumber? a, keyNumber? b with
    | some m, some n => m = n || m.compare? n == some .eq
    | _, _ => false

/-- Entries with the value of a key replaced, or added at the end. -/
def putEntry (key v : Value) : List (Value × Value) → List (Value × Value)
  | [] => [(key, v)]
  | (k, w) :: rest => if sameKey k key then (k, v) :: rest else (k, w) :: putEntry key v rest

/-- Whether a value can be the key of a mapping. -/
def isKey : Value → Bool
  | .list _ | .dict _ => false
  | _ => true

mutual

/-- The value of a node. -/
def Node.value : Node → Except Fault Value
  | .plain cs => resolve cs
  | .quoted cs => .ok (.text (String.ofList cs))
  | .sequence items => do return .list (← valuesOf items)
  | .mapping entries => do return .dict (← entriesOf [] entries)

/-- The values of nodes. -/
def valuesOf : List Node → Except Fault (List Value)
  | [] => .ok []
  | n :: ns => do
    let v ← n.value
    return v :: (← valuesOf ns)

/-- The entries of a mapping, added to those before them. -/
def entriesOf (before : List (Value × Value)) :
    List (Node × Node) → Except Fault (List (Value × Value))
  | [] => .ok before
  | (k, n) :: rest => do
    let key ← match k with
      | .plain ['='] => .ok (.text "=")
      | k => k.value
    if !isKey key then throw .malformed
    let v ← n.value
    entriesOf (putEntry key v before) rest

end

/-- The value of a document. -/
def load (text : String) : Except Fault Value :=
  match Node.ofText? text.toList with
  | some n => n.value
  | none => .error .malformed

end Worksheet.Yaml
