/-!
# UTF-8

Text as bytes, and bytes as text.  Where bytes are not well-formed, the longest run of them that
could have begun a character, or else a single byte, is read as one replacement character.
-/

namespace Worksheet.Text

/-- The bytes of a text. -/
def utf8Bytes (cs : List Char) : List UInt8 :=
  cs.flatMap String.utf8EncodeChar

/-- The character that stands for bytes that are not well-formed. -/
def replacement : Char := '\ufffd'

/-- A byte that goes on with a character, between bounds. -/
def isTail (low high : Nat) (b : UInt8) : Bool :=
  low ≤ b.toNat && b.toNat ≤ high

/-- The least and the greatest byte after the first one of a character, and how many more bytes
follow in all; nothing if no character of several bytes starts so. -/
def tailOf? (b : UInt8) : Option (Nat × Nat × Nat) :=
  let n := b.toNat
  if n < 0xc2 then none
  else if n < 0xe0 then some (0x80, 0xbf, 1)
  else if n = 0xe0 then some (0xa0, 0xbf, 2)
  else if n = 0xed then some (0x80, 0x9f, 2)
  else if n < 0xf0 then some (0x80, 0xbf, 2)
  else if n = 0xf0 then some (0x90, 0xbf, 3)
  else if n < 0xf4 then some (0x80, 0xbf, 3)
  else if n = 0xf4 then some (0x80, 0x8f, 3)
  else none

/-- The bytes that go on with a character: at most `count`, the first of them between bounds. -/
def tailBytes (low high : Nat) : Nat → List UInt8 → List UInt8
  | 0, _ => []
  | _, [] => []
  | count + 1, b :: bs => if isTail low high b then b :: tailBytes 0x80 0xbf count bs else []

/-- The code point of a first byte and the bytes after it. -/
def codeOf (b : UInt8) (tail : List UInt8) : Nat :=
  let lead := match tail.length with
    | 1 => b.toNat % 32
    | 2 => b.toNat % 16
    | _ => b.toNat % 8
  tail.foldl (fun n b => 64 * n + b.toNat % 64) lead

/-- The character that starts with a byte, and how many of the bytes after it belong to it. -/
def decodeFirst (b : UInt8) (bs : List UInt8) : Char × Nat :=
  if b < 128 then (Char.ofNat b.toNat, 0)
  else
    match tailOf? b with
    | none => (replacement, 0)
    | some (low, high, count) =>
      let tail := tailBytes low high count bs
      (if tail.length = count then Char.ofNat (codeOf b tail) else replacement, tail.length)

/-- The text that bytes stand for. -/
def utf8Decode : List UInt8 → List Char
  | [] => []
  | b :: bs =>
    (decodeFirst b bs).1 :: utf8Decode (bs.drop (decodeFirst b bs).2)
termination_by bytes => bytes.length
decreasing_by
  simp only [List.length_drop, List.length_cons]
  omega

end Worksheet.Text
