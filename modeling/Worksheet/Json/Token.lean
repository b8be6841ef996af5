import Worksheet.Json.Basic
import Worksheet.Text.Hexadecimal

/-!
# Tokens of JSON text

JSON text is cut into tokens from left to right, with spaces, tabs and line ends between them left
out.  A token that is not well-formed ends the list.
-/

namespace Worksheet.Json

/-- A token of JSON text. -/
inductive Token where
  | beginArray
  | endArray
  | beginObject
  | endObject
  | comma
  | colon
  /-- A value with a name: null, a truth value, or a number that is not finite. -/
  | named (v : Json)
  | number (n : Decimal.Numeral)
  | text (s : List CodePoint)
  | malformed
deriving Inhabited

namespace Token

/-- White space between tokens. -/
def isGap (c : Char) : Bool :=
  c == ' ' || c == '\t' || c == '\n' || c == '\r'

/-! ## Strings -/

/-- The body of a string up to its closing quote.  A backslash takes the next character with it. -/
def stringBody? : List Char → Option (List Char)
  | [] => none
  | '"' :: _ => some []
  | '\\' :: c :: cs => (stringBody? cs).map ('\\' :: c :: ·)
  | c :: cs => (stringBody? cs).map (c :: ·)

/-- The character that a backslash and a letter stand for. -/
def escaped? : Char → Option Char
  | '"' => some '"'
  | '\\' => some '\\'
  | '/' => some '/'
  | 'b' => some '\x08'
  | 'f' => some '\x0c'
  | 'n' => some '\n'
  | 'r' => some '\r'
  | 't' => some '\t'
  | _ => none

/-- The code point of sixteen bits that are not part of a pair. -/
def pointOfUnit (unit : Nat) : CodePoint :=
  if h : 0xd800 ≤ unit ∧ unit < 0xe000 then .surrogate ⟨unit - 0xd800, by omega⟩
  else .char (Char.ofNat unit)

/-- Puts sixteen bits in front of code points.  The first half of a pair joins the second half, if
that comes next. -/
def consUnit (unit : Nat) : List CodePoint → List CodePoint
  | .surrogate i :: rest =>
    if 0xd800 ≤ unit && unit < 0xdc00 && 0x400 ≤ i.val then
      .char (Char.ofNat (0x10000 + 0x400 * (unit - 0xd800) + (i.val - 0x400))) :: rest
    else pointOfUnit unit :: .surrogate i :: rest
  | rest => pointOfUnit unit :: rest

/-- The code points that the body of a string stands for.  Control characters have to be escaped. -/
def unescape? : List Char → Option (List CodePoint)
  | [] => some []
  | '\\' :: 'u' :: a :: b :: c :: d :: cs => do
    return consUnit (← Text.ofHex? [a, b, c, d]) (← unescape? cs)
  | '\\' :: e :: cs => do return .char (← escaped? e) :: (← unescape? cs)
  | '\\' :: [] => none
  | c :: cs => if c < ' ' then none else (unescape? cs).map (.char c :: ·)

/-! ## Numbers and names -/

/-- Digits with an optional fraction and an optional exponent at the front of a text.  A zero stands
alone before the point. -/
def magnitudeLexeme? (cs : List Char) : Option (List Char) :=
  let whole := match cs with
    | '0' :: _ => ['0']
    | _ => cs.takeWhile Char.isDigit
  if whole.isEmpty then none
  else
    let rest := cs.drop whole.length
    let fraction := match rest with
      | '.' :: tail =>
        let digits := tail.takeWhile Char.isDigit
        if digits.isEmpty then [] else '.' :: digits
      | _ => []
    some (whole ++ fraction ++ Decimal.exponentLexeme (rest.drop fraction.length))

/-- A number at the front of a text. -/
def numberLexeme? : List Char → Option (List Char)
  | '-' :: cs => (magnitudeLexeme? cs).map ('-' :: ·)
  | cs => magnitudeLexeme? cs

/-- The values that have names. -/
def names : List (String × Json) :=
  [("null", .null), ("true", .bool true), ("false", .bool false), ("NaN", .number (.float .nan)),
    ("Infinity", .number (.float (.infinite false))),
    ("-Infinity", .number (.float (.infinite true)))]

/-! ## Tokens -/

/-- The token at the front of a text that is not empty, and how many characters it takes up after
the first. -/
def first (c : Char) (cs : List Char) : Token × Nat :=
  match c with
  | '[' => (beginArray, 0)
  | ']' => (endArray, 0)
  | '\x7b' => (beginObject, 0)
  | '\x7d' => (endObject, 0)
  | ',' => (comma, 0)
  | ':' => (colon, 0)
  | '"' =>
    match stringBody? cs with
    | some body => (((unescape? body).map text).getD malformed, body.length + 1)
    | none => (malformed, 0)
  | c =>
    match names.find? fun (name, _) => name.toList.isPrefixOf (c :: cs) with
    | some (name, v) => (named v, name.length - 1)
    | none =>
      match numberLexeme? (c :: cs) with
      | some lexeme =>
        (((Decimal.Numeral.read? lexeme).map number).getD malformed, lexeme.length - 1)
      | none => (malformed, 0)

end Token

/-- The tokens of a text. -/
def tokens (cs : List Char) : List Token :=
  match _h : cs.dropWhile Token.isGap with
  | [] => []
  | c :: rest =>
    match Token.first c rest with
    | (.malformed, _) => [.malformed]
    | (t, more) => t :: tokens (rest.drop more)
termination_by cs.length
decreasing_by
  have := (List.dropWhile_suffix (p := Token.isGap) (l := cs)).length_le
  simp only [_h, List.length_cons] at this
  simp only [List.length_drop]
  omega

end Worksheet.Json
