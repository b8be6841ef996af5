import Worksheet.Formula.Terminal

/-!
# Tokens of a formula

A formula's text is cut into tokens from left to right, with blanks between them left out.  Which
classes of tokens are tried depends on what can stand at that place: after an operand an operator,
and after an operator an operand.  Where none of those matches, any class is taken; such a token
cannot be part of a formula and is there to be named in the message.
-/

namespace Worksheet.Formula

/-- What can stand at a place of a formula. -/
inductive Expected where
  /-- The start of an expression. -/
  | operand
  /-- The first argument of a function, or the end of its arguments. -/
  | firstArgument
  /-- What goes on after an expression. -/
  | operator
  /-- What goes on after a cell, a colon included. -/
  | afterCell
  /-- The second cell of a range. -/
  | rangeEnd
deriving DecidableEq, Inhabited

namespace Expected

/-- The classes that are tried first. -/
def terminals : Expected → List Terminal
  | operand => [.call, .cell, .bool, .number, .text, .opening, .minus, .plus]
  | firstArgument => [.call, .cell, .bool, .number, .text, .opening, .minus, .plus, .closing]
  | operator =>
    [.greaterEqual, .lessEqual, .notEqual, .ampersand, .caret, .comma, .equal, .less, .minus,
      .greater, .percent, .plus, .closing, .slash, .star]
  | afterCell =>
    [.greaterEqual, .lessEqual, .notEqual, .ampersand, .caret, .colon, .comma, .equal, .less,
      .minus, .greater, .percent, .plus, .closing, .slash, .star]
  | rangeEnd => [.cell]

/-- What can stand after a token. -/
def after : Expected → Terminal → Expected
  | rangeEnd, .cell => operator
  | _, .cell => afterCell
  | _, .call => firstArgument
  | _, .colon => rangeEnd
  | _, .bool | _, .number | _, .text | _, .percent | _, .closing => operator
  | _, _ => operand

end Expected

/-- A piece of a formula's text, with the column of its first character, counted from one. -/
structure Token where
  terminal : Terminal
  chars : List Char
  column : Nat
deriving DecidableEq, Inhabited

/-- Where the tokens of a text end. -/
inductive Stop where
  /-- At the end of the text; the column is that of the last token. -/
  | finish (column : Nat)
  /-- At a character that no token starts with. -/
  | stray (c : Char) (column : Nat)
deriving DecidableEq, Inhabited

/-- Blanks between tokens. -/
def isGap (c : Char) : Bool :=
  c == ' ' || c == '\t' || c == '\n' || c == '\r' || c == '\x0c'

/-- The column after some characters: a line feed starts a new line. -/
def advance (column : Nat) (cs : List Char) : Nat :=
  cs.foldl (fun column c => if c = '\n' then 1 else column + 1) column

/-- The first of some classes that matches, with the text it takes up. -/
def firstMatch? (terminals : List Terminal) (cs : List Char) : Option (Terminal × List Char) :=
  terminals.findSome? fun t => (t.lexeme? cs).map (t, ·)

/-- The token at the front of a text. -/
def nextLexeme? (expected : Expected) (cs : List Char) : Option (Terminal × List Char) :=
  (firstMatch? expected.terminals cs).or (firstMatch? Terminal.all cs)

/-- The tokens of a text that starts at `column`, after a token at column `last`. -/
def scan (expected : Expected) (last column : Nat) (cs : List Char) : List Token × Stop :=
  let gap := cs.takeWhile isGap
  let column := advance column gap
  match _h : cs.dropWhile isGap with
  | [] => ([], .finish last)
  | c :: rest =>
    match nextLexeme? expected (c :: rest) with
    | none => ([], .stray c column)
    | some (terminal, lexeme) =>
      let (tokens, stop) :=
        scan (expected.after terminal) column (advance column lexeme)
          (rest.drop (lexeme.length - 1))
      (⟨terminal, lexeme, column⟩ :: tokens, stop)
termination_by cs.length
decreasing_by
  have := (List.dropWhile_suffix (p := isGap) (l := cs)).length_le
  simp only [_h, List.length_cons] at this
  simp only [List.length_drop]
  omega

end Worksheet.Formula
