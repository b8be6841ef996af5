import Worksheet.Number

/-!
# Cell values

A cell holds nothing, a truth value, a number or a text.  Sheets read from files may also hold
lists, mappings and dates; formulas see those as their text only.
-/

namespace Worksheet

/-- A raw cell value. -/
inductive Value where
  | null
  | bool (b : Bool)
  | number (n : Number)
  | text (s : String)
  | list (items : List Value)
  | dict (entries : List (Value × Value))
  /-- A date or a time, by its text and by its text within a list. -/
  | stamp (shown quoted : String)
deriving Inhabited

namespace Value

/-- Absent or empty text. -/
def isEmpty : Value → Bool
  | null => true
  | text s => s.isEmpty
  | _ => false

/-- Whether a value counts as set: neither null, nor false, zero or empty. -/
def isSet : Value → Bool
  | null => false
  | bool b => b
  | number n => !n.isZero
  | text s => !s.isEmpty
  | list items => !items.isEmpty
  | dict entries => !entries.isEmpty
  | stamp .. => true

/-- A formula is a text that starts with the equals sign. -/
def formula? : Value → Option String
  | text s => if s.startsWith "=" then some s else none
  | _ => none

/-- Whether the value is a formula. -/
def isFormula (v : Value) : Bool :=
  v.formula?.isSome

mutual

/-- The value as messages and lists show it, with text between quotes. -/
def quoted : Value → Except Failure String
  | null => .ok "None"
  | bool b => .ok (if b then "True" else "False")
  | number n => n.exactText
  | text s => .ok (Text.quoted s)
  | list items => do return "[" ++ ", ".intercalate (← quotedItems items) ++ "]"
  | dict entries => do return "\x7b" ++ ", ".intercalate (← quotedEntries entries) ++ "\x7d"
  | stamp _ quoted => .ok quoted

/-- The items of a list, each as `quoted` shows it. -/
def quotedItems : List Value → Except Failure (List String)
  | [] => .ok []
  | v :: vs => do
    let first ← quoted v
    return first :: (← quotedItems vs)

/-- The entries of a mapping, each as key and value. -/
def quotedEntries : List (Value × Value) → Except Failure (List String)
  | [] => .ok []
  | (k, v) :: rest => do
    let key ← quoted k
    let value ← quoted v
    return (key ++ ": " ++ value) :: (← quotedEntries rest)

end

end Value

end Worksheet
