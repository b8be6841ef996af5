import Worksheet.Json.Token

/-!
# Reading JSON text

Tokens are read one by one.  What is still open is kept as a stack of frames, and values nest only
to a bounded depth.  Of an entry that comes twice in an object the last value counts.
-/

namespace Worksheet.Json

/-- Why a text cannot be read. -/
inductive Fault where
  /-- The text is not JSON. -/
  | malformed
  /-- An integer has more digits than are read. -/
  | integerTooLong (digits : Nat)
  /-- Values are nested too deeply. -/
  | tooDeep
deriving DecidableEq, Inhabited

/-- How deeply arrays and objects nest in a text that can be read. -/
def maxDepth : Nat := 980

/-- An array or an object of which the end has not been read. -/
inductive Frame where
  /-- An array with its items so far, last one first. -/
  | array (items : List Json)
  /-- An object with its entries so far, and the key of the value that is being read. -/
  | object (entries : List (List CodePoint × Json)) (key : List CodePoint)
deriving Inhabited

/-- What has been read at the end of the stack of frames. -/
inductive Focus where
  /-- Nothing yet: a value has to start here. -/
  | value
  /-- Nothing yet, right after the start of an array. -/
  | firstItem
  /-- The start of an object. -/
  | firstKey
  /-- A comma in an object with these entries. -/
  | key (entries : List (List CodePoint × Json))
  /-- A key in an object with these entries. -/
  | colon (entries : List (List CodePoint × Json)) (key : List CodePoint)
  /-- A value. -/
  | complete (v : Json)
deriving Inhabited

/-- Frames from the innermost out, and what follows them. -/
structure Reading where
  frames : List Frame
  focus : Focus
deriving Inhabited

/-- Reads the token at which a value starts. -/
def startValue (frames : List Frame) : Token → Except Fault Reading
  | .named v => .ok ⟨frames, .complete v⟩
  | .text s => .ok ⟨frames, .complete (.text s)⟩
  | .number n =>
    match Number.ofNumeral n with
    | .ok n => .ok ⟨frames, .complete (.number n)⟩
    | .error _ => .error (.integerTooLong n.whole.length)
  | .beginArray =>
    if maxDepth ≤ frames.length then .error .tooDeep else .ok ⟨.array [] :: frames, .firstItem⟩
  | .beginObject =>
    if maxDepth ≤ frames.length then .error .tooDeep else .ok ⟨.object [] [] :: frames, .firstKey⟩
  | _ => .error .malformed

/-- Reads one token. -/
def step (r : Reading) (t : Token) : Except Fault Reading :=
  match r.focus, r.frames, t with
  | .value, frames, t => startValue frames t
  | .firstItem, .array _ :: frames, .endArray => .ok ⟨frames, .complete (.array [])⟩
  | .firstItem, frames, t => startValue frames t
  | .firstKey, .object entries _ :: frames, .endObject => .ok ⟨frames, .complete (.object entries)⟩
  | .firstKey, .object entries _ :: frames, .text k => .ok ⟨frames, .colon entries k⟩
  | .key entries, frames, .text k => .ok ⟨frames, .colon entries k⟩
  | .colon entries k, frames, .colon => .ok ⟨.object entries k :: frames, .value⟩
  | .complete v, .array items :: frames, .comma => .ok ⟨.array (v :: items) :: frames, .value⟩
  | .complete v, .array items :: frames, .endArray =>
    .ok ⟨frames, .complete (.array (v :: items).reverse)⟩
  | .complete v, .object entries k :: frames, .comma => .ok ⟨frames, .key (put k v entries)⟩
  | .complete v, .object entries k :: frames, .endObject =>
    .ok ⟨frames, .complete (.object (put k v entries))⟩
  | _, _, _ => .error .malformed

/-- Reads a whole text. -/
def read (cs : List Char) : Except Fault Json := do
  match ← (tokens cs).foldlM step ⟨[], .value⟩ with
  | ⟨[], .complete v⟩ => return v
  | _ => throw .malformed

end Worksheet.Json
