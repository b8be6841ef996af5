import Worksheet.Yaml.Scalar

/-!
# Nodes of a YAML document

The tree of a document, in which scalars are still text.  Collections come in two forms: flow
collections between brackets, and block collections, which are held together by indentation.  Of
block collections, keys without explicit marks are read, and scalars that are plain or quoted.

Each function takes an amount of fuel that is more than the characters that it can read.
-/

namespace Worksheet.Yaml

/-- A node of a document. -/
inductive Node where
  | plain (text : List Char)
  | quoted (text : List Char)
  | sequence (items : List Node)
  | mapping (entries : List (Node × Node))
deriving Inhabited

/-- The node of a value that is left out. -/
def Node.nothing : Node := .plain []

/-! ## Gaps between tokens -/

/-- Whether a line break was crossed, the column after it, and what follows. -/
structure Gap where
  crossed : Bool
  column : Nat
  rest : List Char

/-- Spaces, comments and line breaks at the front of a text that starts at a column. -/
def skipGap (comment crossed : Bool) (column : Nat) : List Char → Gap
  | [] => ⟨crossed, column, []⟩
  | c :: cs =>
    if c = '\n' then skipGap false true 0 cs
    else if comment || c = '#' then skipGap true crossed (column + 1) cs
    else if c = ' ' then skipGap false crossed (column + 1) cs
    else ⟨crossed, column, c :: cs⟩

/-- What follows the gap at the front of a text. -/
def afterGap (cs : List Char) : List Char :=
  (skipGap false false 0 cs).rest

/-- What follows the anchors at the front of a text; a tag that says nothing is passed over, too. -/
def afterProperties? : (fuel : Nat) → List Char → Option (List Char)
  | 0, _ => none
  | fuel + 1, cs =>
    match cs with
    | '&' :: rest =>
      let name := rest.takeWhile fun c => c.isAlphanum || c == '-' || c == '_'
      let rest := rest.drop name.length
      if name.isEmpty || !isAtGap rest then none
      else afterProperties? fuel (rest.dropWhile (· = ' '))
    | '!' :: rest =>
      if isAtGap rest then afterProperties? fuel (rest.dropWhile (· = ' ')) else none
    | cs => some cs

/-! ## Flow collections -/

/-- A scalar that starts at the front of a text.  The lines of a plain one have to be indented to
`indent` at least, outside of flow collections. -/
def scalar? (flow : Bool) (indent fuel : Nat) (cs : List Char) : Option (Node × List Char) :=
  match cs with
  | '\'' :: rest => (singleQuoted? fuel rest).map fun (text, rest) => (.quoted text, rest)
  | '"' :: rest => (doubleQuoted? fuel rest).map fun (text, rest) => (.quoted text, rest)
  | cs =>
    if startsPlain flow cs then
      let (first, rest) := plainLine flow 0 cs
      let (more, rest) := plainMore flow indent fuel rest
      some (.plain (first ++ more), rest)
    else none

mutual

/-- A node within a flow collection. -/
def flowNode? : (fuel : Nat) → List Char → Option (Node × List Char)
  | 0, _ => none
  | fuel + 1, cs => do
    match ← afterProperties? fuel cs with
    | '[' :: rest => do
      let (items, rest) ← flowItems? fuel (afterGap rest)
      return (.sequence items, rest)
    | '\x7b' :: rest => do
      let (entries, rest) ← flowEntries? fuel (afterGap rest)
      return (.mapping entries, rest)
    | cs => scalar? true 0 fuel cs

/-- A node within a flow collection and, after a colon, its value. -/
def flowPair? : (fuel : Nat) → List Char → Option (Node × Option Node × List Char)
  | 0, _ => none
  | fuel + 1, cs => do
    let (key, rest) ← flowNode? fuel cs
    match afterGap rest with
    | ':' :: rest =>
      let rest := afterGap rest
      match rest with
      | c :: _ =>
        if c = ',' || c = ']' || c = '\x7d' then return (key, some .nothing, rest)
        else
          let (v, rest) ← flowNode? fuel rest
          return (key, some v, afterGap rest)
      | [] => none
    | rest => return (key, none, rest)

/-- The items of a sequence up to its closing bracket.  A pair is a mapping of one entry. -/
def flowItems? : (fuel : Nat) → List Char → Option (List Node × List Char)
  | 0, _ => none
  | fuel + 1, cs =>
    match cs with
    | ']' :: rest => some ([], rest)
    | cs => do
      let (key, v, rest) ← flowPair? fuel cs
      let item := match v with
        | some v => .mapping [(key, v)]
        | none => key
      match rest with
      | ',' :: rest => do
        let (items, rest) ← flowItems? fuel (afterGap rest)
        return (item :: items, rest)
      | ']' :: rest => return ([item], rest)
      | _ => none

/-- The entries of a mapping up to its closing brace. -/
def flowEntries? : (fuel : Nat) → List Char → Option (List (Node × Node) × List Char)
  | 0, _ => none
  | fuel + 1, cs =>
    match cs with
    | '\x7d' :: rest => some ([], rest)
    | cs => do
      let (key, v, rest) ← flowPair? fuel cs
      let entry := (key, v.getD .nothing)
      match rest with
      | ',' :: rest => do
        let (entries, rest) ← flowEntries? fuel (afterGap rest)
        return (entry :: entries, rest)
      | '\x7d' :: rest => return ([entry], rest)
      | _ => none

end

/-! ## Block collections -/

/-- A place in a document. -/
structure Place where
  column : Nat
  rest : List Char

/-- The node of a scalar or a flow collection in a block, and what follows it. -/
def inlineNode? (indent fuel : Nat) (cs : List Char) : Option (Node × List Char) :=
  match cs with
  | '[' :: _ | '\x7b' :: _ => flowNode? fuel cs
  | cs => scalar? false indent fuel cs

/-- A key on one line, and what follows its colon. -/
def blockKey? (fuel : Nat) (cs : List Char) : Option (Node × List Char) := do
  let (key, rest) ←
    if startsPlain false cs then
      let (text, rest) := plainLine false 0 cs
      some (.plain text, rest)
    else inlineNode? 0 fuel cs
  if (cs.take (cs.length - rest.length)).contains '\n' then none
  match rest.dropWhile (· = ' ') with
  | ':' :: rest => if isAtGap rest then some (key, rest) else none
  | _ => none

/-- Whether an entry of a block sequence starts at the front of a text. -/
def startsEntry : List Char → Bool
  | '-' :: rest => isAtGap rest
  | _ => false

/-- The column after the part of a text that has been read on a line. -/
def columnAfter (column : Nat) (cs rest : List Char) : Nat :=
  column + (cs.length - rest.length)

mutual

/-- A node in a block.  Plain scalars have to be indented to `indent` at least, and block
collections can only start where a line does or after a mark. -/
def blockNode? (indent : Nat) (atStart : Bool) : (fuel : Nat) → Place → Option (Node × Gap)
  | 0, _ => none
  | fuel + 1, p => do
    let cs ← afterProperties? fuel p.rest
    let column := columnAfter p.column p.rest cs
    let finish (node : Node) (rest : List Char) : Option (Node × Gap) :=
      let gap := skipGap false false 0 rest
      if gap.crossed || gap.rest.isEmpty then some (node, gap) else none
    if cs.isEmpty || cs.head? = some '\n' then finish .nothing cs
    else if startsEntry cs then
      if atStart then do
        let (items, gap) ← blockItems? column fuel cs
        return (.sequence items, gap)
      else none
    else
      match blockKey? fuel cs with
      | some _ =>
        if atStart then do
          let (entries, gap) ← blockEntries? column fuel cs
          return (.mapping entries, gap)
        else none
      | none => do
        let (node, rest) ← inlineNode? indent fuel cs
        finish node rest
termination_by structural fuel => fuel

/-- The items of a sequence with its marks in a column. -/
def blockItems? (column : Nat) : (fuel : Nat) → List Char → Option (List Node × Gap)
  | 0, _ => none
  | fuel + 1, cs => do
    if !startsEntry cs then none
    let gap := skipGap false false (column + 1) (cs.drop 1)
    let (item, gap) ←
      if gap.rest.isEmpty || (gap.crossed && gap.column ≤ column) then some (Node.nothing, gap)
      else blockNode? (column + 1) true fuel ⟨gap.column, gap.rest⟩
    if !gap.rest.isEmpty && gap.column = column && startsEntry gap.rest then
      let (items, gap) ← blockItems? column fuel gap.rest
      return (item :: items, gap)
    else if gap.rest.isEmpty || gap.column ≤ column then return ([item], gap)
    else none
termination_by structural fuel => fuel

/-- The value of a key in a column, after its colon and the gap that follows. -/
def blockValue? (column : Nat) : (fuel : Nat) → Gap → Option (Node × Gap)
  | 0, _ => none
  | fuel + 1, gap =>
    if gap.rest.isEmpty then some (.nothing, gap)
    else if !gap.crossed || column < gap.column then
      blockNode? (column + 1) gap.crossed fuel ⟨gap.column, gap.rest⟩
    else if gap.column = column && startsEntry gap.rest then do
      let (items, gap) ← blockItems? column fuel gap.rest
      return (.sequence items, gap)
    else some (.nothing, gap)
termination_by structural fuel => fuel

/-- The entries of a mapping with its keys in a column. -/
def blockEntries? (column : Nat) : (fuel : Nat) → List Char → Option (List (Node × Node) × Gap)
  | 0, _ => none
  | fuel + 1, cs => do
    let (key, rest) ← blockKey? fuel cs
    let gap := skipGap false false (columnAfter column cs rest) rest
    let (v, gap) ← blockValue? column fuel gap
    if gap.rest.isEmpty || gap.column < column then return ([(key, v)], gap)
    else if gap.column = column then
      let (entries, gap) ← blockEntries? column fuel gap.rest
      return ((key, v) :: entries, gap)
    else none
termination_by structural fuel => fuel

end

/-! ## Documents -/

/-- Whether a line is a mark of three characters that starts or ends a document. -/
def isMark (mark line : List Char) : Bool :=
  mark.isPrefixOf line && isAtGap (line.drop 3)

/-- A line that holds nothing but a comment. -/
def isVoid (line : List Char) : Bool :=
  match line.dropWhile (· = ' ') with
  | [] | '#' :: _ => true
  | _ => false

/-- The lines of a text, which are separated by line feeds. -/
def splitLines (cs : List Char) : List (List Char) :=
  match cs with
  | [] => [[]]
  | '\n' :: cs => [] :: splitLines cs
  | c :: cs =>
    match splitLines cs with
    | line :: lines => (c :: line) :: lines
    | [] => [[c]]

/-- The lines of a single document without its marks, and whether its first line stands after a
mark.  There must be nothing outside of the document. -/
def singleDocument? (lines : List (List Char)) : Option (Bool × List (List Char)) :=
  let dashes := ['-', '-', '-']
  let dots := ['.', '.', '.']
  let lines := lines.dropWhile isVoid
  let (marked, lines) := match lines with
    | line :: rest =>
      if isMark dashes line then (true, ([' ', ' ', ' '] ++ line.drop 3) :: rest)
      else (false, line :: rest)
    | [] => (false, [])
  let isEnd (line : List Char) : Bool := isMark dashes line || isMark dots line
  let body := lines.takeWhile (!isEnd ·)
  match lines.drop body.length with
  | [] => some (marked, body)
  | line :: rest =>
    let clean := isMark dots line && isVoid (line.drop 3) && rest.all isVoid
    if clean && (marked || !body.isEmpty) then some (marked, body) else none

/-- Puts line feeds between lines. -/
def joinLines : List (List Char) → List Char
  | [] => []
  | [line] => line
  | line :: lines => line ++ '\n' :: joinLines lines

/-- The node of a document. -/
def Node.ofText? (text : List Char) : Option Node := do
  if !text.all isAllowed then none
  let text := match normalize text with
    | '\ufeff' :: cs => cs
    | cs => cs
  let (marked, lines) ← singleDocument? (splitLines text)
  let cs := joinLines lines
  if marked.not && cs.head? = some '%' then none
  let fuel := 4 * cs.length + 4
  let gap := skipGap false false 0 cs
  if gap.rest.isEmpty then return .nothing
  let (node, gap) ← blockNode? 0 (!marked || gap.crossed) fuel ⟨gap.column, gap.rest⟩
  if gap.rest.isEmpty then return node else none

end Worksheet.Yaml
