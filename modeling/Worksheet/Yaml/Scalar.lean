import Worksheet.Text.Hexadecimal

/-!
# Scalars in YAML text

How the text of a scalar is taken from a document.  A plain scalar ends where a comment, a mapping
value or a line that is indented too little starts, and a quoted one at its quote.  Line breaks
within a scalar are folded: a single one is a space, and each further one stays.

Line breaks are line feeds here; `normalize` makes them so.
-/

namespace Worksheet.Yaml

/-- The text with every line break as a line feed. -/
def normalize : List Char → List Char
  | [] => []
  | '\r' :: '\n' :: cs => '\n' :: normalize cs
  | c :: cs =>
    (if c = '\r' || c = '\x85' || c = '\u2028' || c = '\u2029' then '\n' else c) :: normalize cs

/-- A character that a document can hold. -/
def isAllowed (c : Char) : Bool :=
  let n := c.toNat
  n == 0x9 || n == 0xa || n == 0xd || (0x20 ≤ n && n ≤ 0x7e) || n == 0x85 ||
    (0xa0 ≤ n && n != 0xfffe && n != 0xffff)

/-- Nothing, or a space, a tab or a line break at the front. -/
def isAtGap : List Char → Bool
  | [] => true
  | c :: _ => c == ' ' || c == '\t' || c == '\n'

/-- A character that means something in flow collections. -/
def isFlowMark (c : Char) : Bool :=
  c == ',' || c == '[' || c == ']' || c == '\x7b' || c == '\x7d'

/-! ## Plain scalars -/

/-- Whether a colon in front of a text sets a key apart from its value. -/
def isAfterKey (flow : Bool) (cs : List Char) : Bool :=
  isAtGap cs || (flow && match cs with
    | c :: _ => isFlowMark c
    | [] => false)

/-- Whether a plain scalar starts at the front of a text. -/
def startsPlain (flow : Bool) : List Char → Bool
  | [] => false
  | c :: cs =>
    if c = '-' || (!flow && (c = '?' || c = ':')) then !isAtGap cs
    else !isAtGap [c] && !isFlowMark c && !"?:#&*!|>'\"%@`".contains c

/-- The part of a plain scalar on one line, and what follows it.  Spaces at the end are left out;
`spaces` counts those that have been read. -/
def plainLine (flow : Bool) (spaces : Nat) : List Char → List Char × List Char
  | [] => ([], [])
  | c :: cs =>
    if c = ' ' then plainLine flow (spaces + 1) cs
    else if c = '\n' || c = '\t' || (c = '#' && 0 < spaces) || (c = ':' && isAfterKey flow cs) ||
        (flow && (isFlowMark c || c = '?')) then ([], c :: cs)
    else
      let (part, rest) := plainLine flow 0 cs
      (List.replicate spaces ' ' ++ c :: part, rest)

/-- Line breaks and spaces at the front of a text: how many breaks, the column after them, and what
follows. -/
def spanBreaks (breaks column : Nat) : List Char → Nat × Nat × List Char
  | '\n' :: cs => spanBreaks (breaks + 1) 0 cs
  | ' ' :: cs => spanBreaks breaks (column + 1) cs
  | cs => (breaks, column, cs)

/-- What line breaks within a scalar turn into. -/
def folded (breaks : Nat) : List Char :=
  if breaks = 1 then [' '] else List.replicate (breaks - 1) '\n'

/-- The lines with which a plain scalar goes on after its first one.  They have to be indented to
`indent` at least. -/
def plainMore (flow : Bool) (indent : Nat) : (fuel : Nat) → List Char → List Char × List Char
  | 0, cs => ([], cs)
  | fuel + 1, cs =>
    match cs with
    | '\n' :: _ =>
      let (breaks, column, rest) := spanBreaks 0 0 cs
      if rest.isEmpty || rest.head? = some '#' || (!flow && column < indent) then ([], cs)
      else
        match plainLine flow 0 rest with
        | ([], _) => ([], cs)
        | (part, rest) =>
          let (more, rest) := plainMore flow indent fuel rest
          (folded breaks ++ part ++ more, rest)
    | _ => ([], cs)

/-! ## Quoted scalars -/

/-- White space within a quoted scalar: what it turns into, and what follows.  Spaces around line
breaks are dropped. -/
def quotedGap (cs : List Char) : List Char × List Char :=
  let blanks := cs.takeWhile fun c => c == ' ' || c == '\t'
  match cs.drop blanks.length with
  | '\n' :: rest =>
    let gap := ('\n' :: rest).takeWhile fun c => c == ' ' || c == '\t' || c == '\n'
    (folded (gap.count '\n'), ('\n' :: rest).drop gap.length)
  | rest => (blanks, rest)

/-- The body of a scalar in single quotes, and what follows its closing quote. -/
def singleQuoted? : (fuel : Nat) → List Char → Option (List Char × List Char)
  | 0, _ => none
  | fuel + 1, cs =>
    match cs with
    | [] => none
    | '\'' :: '\'' :: rest => do
      let (body, rest) ← singleQuoted? fuel rest
      return ('\'' :: body, rest)
    | '\'' :: rest => some ([], rest)
    | c :: rest =>
      if isAtGap cs then do
        let (gap, rest) := quotedGap cs
        let (body, rest) ← singleQuoted? fuel rest
        return (gap ++ body, rest)
      else do
        let (body, rest) ← singleQuoted? fuel rest
        return (c :: body, rest)

/-- The character that a backslash and a letter stand for. -/
def escaped? : Char → Option Char
  | '0' => some '\x00'
  | 'a' => some '\x07'
  | 'b' => some '\x08'
  | 't' | '\t' => some '\t'
  | 'n' => some '\n'
  | 'v' => some '\x0b'
  | 'f' => some '\x0c'
  | 'r' => some '\r'
  | 'e' => some '\x1b'
  | ' ' => some ' '
  | '"' => some '"'
  | '\\' => some '\\'
  | '/' => some '/'
  | 'N' => some '\x85'
  | '_' => some '\xa0'
  | 'L' => some '\u2028'
  | 'P' => some '\u2029'
  | _ => none

/-- The character with a code point in a number of hexadecimal digits. -/
def escapedCode? (count : Nat) (cs : List Char) : Option (Char × List Char) := do
  if cs.length < count then none
  let n ← Text.ofHex? (cs.take count)
  if h : n.isValidChar then some (Char.ofNatAux n h, cs.drop count) else none

/-- The body of a scalar in double quotes, and what follows its closing quote. -/
def doubleQuoted? : (fuel : Nat) → List Char → Option (List Char × List Char)
  | 0, _ => none
  | fuel + 1, cs =>
    match cs with
    | [] => none
    | '"' :: rest => some ([], rest)
    | '\\' :: '\n' :: rest => do
      let gap := rest.takeWhile fun c => c == ' ' || c == '\t' || c == '\n'
      let (body, rest) ← doubleQuoted? fuel (rest.drop gap.length)
      return (List.replicate (gap.count '\n') '\n' ++ body, rest)
    | '\\' :: e :: rest => do
      let (c, rest) ← match e with
        | 'x' => escapedCode? 2 rest
        | 'u' => escapedCode? 4 rest
        | 'U' => escapedCode? 8 rest
        | e => (escaped? e).map (·, rest)
      let (body, rest) ← doubleQuoted? fuel rest
      return (c :: body, rest)
    | c :: rest =>
      if isAtGap cs then do
        let (gap, rest) := quotedGap cs
        let (body, rest) ← doubleQuoted? fuel rest
        return (gap ++ body, rest)
      else do
        let (body, rest) ← doubleQuoted? fuel rest
        return (c :: body, rest)

end Worksheet.Yaml
