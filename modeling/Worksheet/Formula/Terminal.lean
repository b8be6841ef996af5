import Worksheet.Address.Basic

/-!
# Terminals of the formula grammar

The classes of tokens, and for each the text that a token of the class takes up at the front of what
is left to read.  Several classes can match the same text, so they are tried in a fixed order.
-/

namespace Worksheet.Formula

/-- The classes of tokens. -/
inductive Terminal where
  | call
  | cell
  | bool
  | number
  | text
  | greaterEqual
  | lessEqual
  | notEqual
  | ampersand
  | caret
  | colon
  | comma
  | equal
  | less
  | opening
  | minus
  | greater
  | percent
  | plus
  | closing
  | slash
  | star
deriving DecidableEq, Inhabited

/-- A letter, an underscore, a digit or a point: what the name of a function goes on with. -/
def isNameChar (c : Char) : Bool :=
  c.isAlphanum || c == '_' || c == '.'

/-- What the name of a function starts with. -/
def isNameStart (c : Char) : Bool :=
  c.isAlpha || c == '_'

/-- The name of a function with its opening parenthesis, spaces and tabs between them included, so
that the name of a function is never read as a cell. -/
def callLexeme? (cs : List Char) : Option (List Char) :=
  match cs with
  | [] => none
  | c :: _ =>
    let name := cs.takeWhile isNameChar
    let rest := cs.dropWhile isNameChar
    let gap := rest.takeWhile fun c => c == ' ' || c == '\t'
    match rest.dropWhile fun c => c == ' ' || c == '\t' with
    | '(' :: _ => if isNameStart c then some (name ++ gap ++ ['(']) else none
    | _ => none

/-- Capital letters and digits. -/
def cellLexeme? (cs : List Char) : Option (List Char) :=
  let letters := cs.takeWhile Address.isColumnLetter
  let digits := (cs.dropWhile Address.isColumnLetter).takeWhile Char.isDigit
  if letters.isEmpty || digits.isEmpty then none else some (letters ++ digits)

/-- Digits with at most one point among them and an optional exponent. -/
def numberLexeme? (cs : List Char) : Option (List Char) :=
  let whole := cs.takeWhile Char.isDigit
  match cs.dropWhile Char.isDigit with
  | '.' :: rest =>
    let fraction := rest.takeWhile Char.isDigit
    if whole.isEmpty && fraction.isEmpty then none
    else
      some (whole ++ '.' :: (fraction ++ Decimal.exponentLexeme (rest.dropWhile Char.isDigit)))
  | rest => if whole.isEmpty then none else some (whole ++ Decimal.exponentLexeme rest)

/-- The rest of a string up to its closing quote.  A backslash takes the next character with it, and
a string does not go over the end of a line. -/
def stringTail? : List Char → Option (List Char)
  | [] => none
  | '"' :: _ => some ['"']
  | '\n' :: _ => none
  | '\\' :: c :: cs => if c = '\n' then none else (stringTail? cs).map ('\\' :: c :: ·)
  | c :: cs => (stringTail? cs).map (c :: ·)

/-- A string between double quotes. -/
def textLexeme? : List Char → Option (List Char)
  | '"' :: cs => (stringTail? cs).map ('"' :: ·)
  | _ => none

/-- A fixed text. -/
def fixedLexeme? (word cs : List Char) : Option (List Char) :=
  if word.isPrefixOf cs then some word else none

namespace Terminal

/-- The name of a class in messages. -/
def name : Terminal → String
  | call => "FUNC_OPEN"
  | cell => "CELL_REF"
  | bool => "BOOL"
  | number => "NUMBER"
  | text => "ESCAPED_STRING"
  | greaterEqual => "__ANON_0"
  | lessEqual => "__ANON_1"
  | notEqual => "__ANON_2"
  | ampersand => "AMPERSAND"
  | caret => "CIRCUMFLEX"
  | colon => "COLON"
  | comma => "COMMA"
  | equal => "EQUAL"
  | less => "LESSTHAN"
  | opening => "LPAR"
  | minus => "MINUS"
  | greater => "MORETHAN"
  | percent => "PERCENT"
  | plus => "PLUS"
  | closing => "RPAR"
  | slash => "SLASH"
  | star => "STAR"

/-- All classes in the order in which they are tried. -/
def all : List Terminal :=
  [call, cell, bool, number, text, greaterEqual, lessEqual, notEqual, ampersand, caret, colon,
    comma, equal, less, opening, minus, greater, percent, plus, closing, slash, star]

/-- The text that a token of the class takes up at the front of a text. -/
def lexeme? : Terminal → List Char → Option (List Char)
  | call, cs => callLexeme? cs
  | cell, cs => cellLexeme? cs
  | bool, cs =>
    (fixedLexeme? ['T', 'R', 'U', 'E'] cs).or (fixedLexeme? ['F', 'A', 'L', 'S', 'E'] cs)
  | number, cs => numberLexeme? cs
  | text, cs => textLexeme? cs
  | greaterEqual, cs => fixedLexeme? ['>', '='] cs
  | lessEqual, cs => fixedLexeme? ['<', '='] cs
  | notEqual, cs => fixedLexeme? ['<', '>'] cs
  | ampersand, cs => fixedLexeme? ['&'] cs
  | caret, cs => fixedLexeme? ['^'] cs
  | colon, cs => fixedLexeme? [':'] cs
  | comma, cs => fixedLexeme? [','] cs
  | equal, cs => fixedLexeme? ['='] cs
  | less, cs => fixedLexeme? ['<'] cs
  | opening, cs => fixedLexeme? ['('] cs
  | minus, cs => fixedLexeme? ['-'] cs
  | greater, cs => fixedLexeme? ['>'] cs
  | percent, cs => fixedLexeme? ['%'] cs
  | plus, cs => fixedLexeme? ['+'] cs
  | closing, cs => fixedLexeme? [')'] cs
  | slash, cs => fixedLexeme? ['/'] cs
  | star, cs => fixedLexeme? ['*'] cs

end Terminal

end Worksheet.Formula
