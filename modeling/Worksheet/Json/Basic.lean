import Worksheet.Number
import Worksheet.Text.CodePoint
import Worksheet.Sorting

/-!
# JSON values

The values that records and reports are made of.  An object is a list of entries in their order;
what is read or built by `put` has each key once.
-/

namespace Worksheet

/-- A JSON value. -/
inductive Json where
  | null
  | bool (b : Bool)
  | number (n : Number)
  | text (s : List CodePoint)
  | array (items : List Json)
  | object (entries : List (List CodePoint × Json))
deriving Inhabited

namespace Json

/-- A text as a JSON value. -/
def ofString (s : String) : Json :=
  text (CodePoint.ofString s)

/-- An integer as a JSON value. -/
def ofInt (i : Int) : Json :=
  number (.int i)

/-- A text, or null. -/
def ofOption (s : Option String) : Json :=
  (s.map ofString).getD null

/-- An entry of an object under a key that is given as a text. -/
def entry (key : String) (v : Json) : List CodePoint × Json :=
  (CodePoint.ofString key, v)

/-- Entries with the value under a key replaced, or added at the end. -/
def put (key : List CodePoint) (v : Json) :
    List (List CodePoint × Json) → List (List CodePoint × Json)
  | [] => [(key, v)]
  | (k, w) :: rest => if k = key then (k, v) :: rest else (k, w) :: put key v rest

/-- The value under a key of an object. -/
def get? (key : String) : Json → Option Json
  | object entries => entries.lookup (CodePoint.ofString key)
  | _ => none

/-- The text that a value is, if it holds no lone surrogate. -/
def text? : Json → Option String
  | text s => CodePoint.toString? s
  | _ => none

/-- Whether the value is an object. -/
def isObject : Json → Bool
  | object _ => true
  | _ => false

mutual

/-- How deeply values are nested: one for a value that holds no others. -/
def height : Json → Nat
  | array items => 1 + heightItems items
  | object entries => 1 + heightEntries entries
  | _ => 1

/-- The greatest height of the items of an array. -/
def heightItems : List Json → Nat
  | [] => 0
  | v :: vs => max (height v) (heightItems vs)

/-- The greatest height of the values in an object. -/
def heightEntries : List (List CodePoint × Json) → Nat
  | [] => 0
  | (_, v) :: rest => max (height v) (heightEntries rest)

end

mutual

/-- The value with the entries of each object in the order of their keys. -/
def sorted : Json → Json
  | array items => array (sortedItems items)
  | object entries =>
    object (sortedBy (fun a b => CodePoint.textLE a.1 b.1) (sortedEntries entries))
  | v => v

/-- The items of an array, each with its keys in order. -/
def sortedItems : List Json → List Json
  | [] => []
  | v :: vs => sorted v :: sortedItems vs

/-- The entries of an object, each value with its keys in order. -/
def sortedEntries : List (List CodePoint × Json) → List (List CodePoint × Json)
  | [] => []
  | (k, v) :: rest => (k, sorted v) :: sortedEntries rest

end

end Json

end Worksheet
