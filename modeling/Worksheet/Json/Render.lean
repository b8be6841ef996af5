import Worksheet.Json.Basic
import Worksheet.Text.Hexadecimal

/-!
# JSON text

The text of a JSON value, in ASCII alone.  The compact form is one line; the indented form puts each
item and each entry on a line of its own.  Numbers that are not finite have names, and an integer
with too many digits cannot be written.
-/

namespace Worksheet.Json

/-- Sixteen bits as an escape in a string. -/
def unitEscape (unit : Nat) : List Char :=
  '\\' :: 'u' :: Text.hexChars 4 unit

/-- A character by escapes: two of them, a pair of surrogates, beyond the first 65536 code points.
-/
def charEscape (c : Char) : List Char :=
  let n := c.toNat
  if n < 0x10000 then unitEscape n
  else
    unitEscape (0xd800 + (n - 0x10000) / 0x400) ++ unitEscape (0xdc00 + (n - 0x10000) % 0x400)

/-- A character within a string. -/
def stringChar (c : Char) : List Char :=
  if c = '"' || c = '\\' then ['\\', c]
  else if c = '\n' then ['\\', 'n']
  else if c = '\r' then ['\\', 'r']
  else if c = '\t' then ['\\', 't']
  else if c = '\x0c' then ['\\', 'f']
  else if c = '\x08' then ['\\', 'b']
  else if ' ' ≤ c && c ≤ '~' then [c]
  else charEscape c

/-- A code point within a string. -/
def stringPoint : CodePoint → List Char
  | .char c => stringChar c
  | .surrogate i => unitEscape (0xd800 + i)

/-- A string between its quotes. -/
def stringChars (s : List CodePoint) : List Char :=
  '"' :: (s.flatMap stringPoint ++ ['"'])

/-- The text of a number. -/
def numberChars : Number → Except Failure (List Char)
  | .int i => do return (← Number.intText i).toList
  | .float .nan => .ok ['N', 'a', 'N']
  | .float (.infinite negative) =>
    .ok ((if negative then ['-'] else []) ++ ['I', 'n', 'f', 'i', 'n', 'i', 't', 'y'])
  | .float x => .ok (Decimal.exactText x).toList

/-- Puts a separator between texts. -/
def joinWith (separator : List Char) : List (List Char) → List Char
  | [] => []
  | [s] => s
  | s :: rest => s ++ separator ++ joinWith separator rest

mutual

/-- The text of a value on one line. -/
def compact : Json → Except Failure (List Char)
  | null => .ok ['n', 'u', 'l', 'l']
  | bool true => .ok ['t', 'r', 'u', 'e']
  | bool false => .ok ['f', 'a', 'l', 's', 'e']
  | number n => numberChars n
  | text s => .ok (stringChars s)
  | array items => do
    return '[' :: (joinWith [',', ' '] (← compactItems items) ++ [']'])
  | object entries => do
    return '\x7b' :: (joinWith [',', ' '] (← compactEntries entries) ++ ['\x7d'])

/-- The texts of the items of an array. -/
def compactItems : List Json → Except Failure (List (List Char))
  | [] => .ok []
  | v :: vs => do
    let first ← compact v
    return first :: (← compactItems vs)

/-- The texts of the entries of an object. -/
def compactEntries : List (List CodePoint × Json) → Except Failure (List (List Char))
  | [] => .ok []
  | (k, v) :: rest => do
    let first ← compact v
    return (stringChars k ++ [':', ' '] ++ first) :: (← compactEntries rest)

end

/-- A line break and the indentation of a level. -/
def lineBreak (level : Nat) : List Char :=
  '\n' :: List.replicate (2 * level) ' '

/-- Texts on lines of their own between brackets. -/
def block (left right : Char) (level : Nat) (parts : List (List Char)) : List Char :=
  if parts.isEmpty then [left, right]
  else
    left :: (lineBreak (level + 1) ++ joinWith (',' :: lineBreak (level + 1)) parts ++
      lineBreak level ++ [right])

mutual

/-- The text of a value at a level of indentation. -/
def indentedAt (level : Nat) : Json → Except Failure (List Char)
  | array items => do return block '[' ']' level (← indentedItems (level + 1) items)
  | object entries => do return block '\x7b' '\x7d' level (← indentedEntries (level + 1) entries)
  | v => v.compact

/-- The texts of the items of an array at a level of indentation. -/
def indentedItems (level : Nat) : List Json → Except Failure (List (List Char))
  | [] => .ok []
  | v :: vs => do
    let first ← indentedAt level v
    return first :: (← indentedItems level vs)

/-- The texts of the entries of an object at a level of indentation. -/
def indentedEntries (level : Nat) :
    List (List CodePoint × Json) → Except Failure (List (List Char))
  | [] => .ok []
  | (k, v) :: rest => do
    let first ← indentedAt level v
    return (stringChars k ++ [':', ' '] ++ first) :: (← indentedEntries level rest)

end

/-- The text of a value on one line. -/
def render (v : Json) : Except Failure String := do
  return String.ofList (← v.compact)

/-- The text of a value with a line for each item and entry. -/
def renderIndented (v : Json) : Except Failure String := do
  return String.ofList (← v.indentedAt 0)

end Worksheet.Json
