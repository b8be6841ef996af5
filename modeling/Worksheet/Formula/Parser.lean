import Worksheet.Formula.Expr
import Worksheet.Formula.Token
import Worksheet.Text.Blank
import Worksheet.Failure

/-!
# Parsing a formula

A formula is an equals sign and an expression.  The parser reads tokens one by one.  What is still
open is kept as a stack of frames: operators that wait for their right operand, parentheses, and
function calls.  An operator closes the frames that bind at least as tightly as itself, a
parenthesis or a comma closes all of them up to its own.  The first token that cannot go on is the
one reported.
-/

namespace Worksheet.Formula

/-- Something open: an expression is being read that will complete it. -/
inductive Frame where
  | operator (op : BinaryOp) (left : Expr)
  | sign (op : SignOp)
  | group
  /-- A call with the arguments read so far, last one first. -/
  | call (opener : String) (args : List Expr)
deriving Inhabited

/-- What has been read at the end of the stack of frames. -/
inductive Focus where
  /-- Nothing yet: an expression has to start here. -/
  | operand
  /-- Nothing yet, right after the opening of a call. -/
  | firstArgument
  /-- An expression. -/
  | complete (e : Expr)
  /-- A cell, which a colon can make the start of a range. -/
  | cell (address : String)
  /-- A cell and a colon. -/
  | rangeEnd (first : String)
deriving Inhabited

/-- The state of the parser: frames from the innermost out, and what follows them. -/
structure Reading where
  frames : List Frame
  focus : Focus
deriving Inhabited

/-- Closes the innermost frames that bind at least as tightly as `level`. -/
def close (level : Nat) : List Frame → Expr → List Frame × Expr
  | .operator op left :: frames, e =>
    if level ≤ op.level then close level frames (.binary op left e)
    else (.operator op left :: frames, e)
  | .sign op :: frames, e =>
    if level ≤ op.level then close level frames (.sign op e) else (.sign op :: frames, e)
  | frames, e => (frames, e)

/-- The operator that a token stands for between two operands. -/
def binaryOp? : Terminal → Option BinaryOp
  | .greater => some (.compare .greater)
  | .less => some (.compare .less)
  | .greaterEqual => some (.compare .greaterEqual)
  | .lessEqual => some (.compare .lessEqual)
  | .equal => some (.compare .equal)
  | .notEqual => some (.compare .notEqual)
  | .ampersand => some .concat
  | .plus => some .add
  | .minus => some .sub
  | .star => some .mul
  | .slash => some .div
  | .caret => some .pow
  | _ => none

/-- Reads a token where an expression has to start. -/
def startOperand (frames : List Frame) (terminal : Terminal) (text : String) : Option Reading :=
  match terminal with
  | .number => some ⟨frames, .complete (.number text)⟩
  | .bool => some ⟨frames, .complete (.bool (text == "TRUE"))⟩
  | .text => some ⟨frames, .complete (.text text)⟩
  | .cell => some ⟨frames, .cell text⟩
  | .call => some ⟨.call text [] :: frames, .firstArgument⟩
  | .opening => some ⟨.group :: frames, .operand⟩
  | .minus => some ⟨.sign .neg :: frames, .operand⟩
  | .plus => some ⟨.sign .pos :: frames, .operand⟩
  | _ => none

/-- Reads a token after an expression.  A power takes the expression alone as its base; any other
operator takes everything before it that binds at least as tightly. -/
def continueOperand (frames : List Frame) (e : Expr) (terminal : Terminal) : Option Reading :=
  match binaryOp? terminal with
  | some op =>
    let (frames, e) := if op = .pow then (frames, e) else close op.level frames e
    some ⟨.operator op e :: frames, .operand⟩
  | none =>
    match terminal with
    | .percent => some ⟨frames, .complete (.percent e)⟩
    | .comma =>
      match close 0 frames e with
      | (.call opener args :: frames, e) => some ⟨.call opener (e :: args) :: frames, .operand⟩
      | _ => none
    | .closing =>
      match close 0 frames e with
      | (.group :: frames, e) => some ⟨frames, .complete e⟩
      | (.call opener args :: frames, e) =>
        some ⟨frames, .complete (.call opener (e :: args).reverse)⟩
      | _ => none
    | _ => none

/-- Reads one token. -/
def Reading.step (r : Reading) (terminal : Terminal) (text : String) : Option Reading :=
  match r.focus with
  | .operand => startOperand r.frames terminal text
  | .firstArgument =>
    match terminal, r.frames with
    | .closing, .call opener _ :: frames => some ⟨frames, .complete (.call opener [])⟩
    | _, _ => startOperand r.frames terminal text
  | .complete e => continueOperand r.frames e terminal
  | .cell address =>
    match terminal with
    | .colon => some ⟨r.frames, .rangeEnd address⟩
    | _ => continueOperand r.frames (.cell address) terminal
  | .rangeEnd first =>
    match terminal with
    | .cell => some ⟨r.frames, .complete (.range first text)⟩
    | _ => none

/-- The expression that has been read, if it is complete. -/
def Reading.finish (r : Reading) : Option Expr :=
  let whole (e : Expr) : Option Expr :=
    match close 0 r.frames e with
    | ([], e) => some e
    | _ => none
  match r.focus with
  | .complete e => whole e
  | .cell address => whole (.cell address)
  | _ => none

/-- Reads tokens up to where they end. -/
def Reading.run (r : Reading) (stop : Stop) : List Token → Except Failure Expr
  | [] =>
    match stop with
    | .stray c column => .error (.unexpectedCharacter c column)
    | .finish column =>
      match r.finish with
      | some e => .ok e
      | none => .error (.unexpectedToken "$END" "" column)
  | t :: tokens =>
    let text := String.ofList t.chars
    match r.step t.terminal text with
    | some r => run r stop tokens
    | none => .error (.unexpectedToken t.terminal.name text t.column)

/-- The expression of a formula.  Blanks around the formula are left out first. -/
def parse (text : String) : Except Failure Expr :=
  match Text.trimBlanks text.toList with
  | '=' :: cs =>
    let (tokens, stop) := scan .operand 1 2 cs
    Reading.run ⟨[], .operand⟩ stop tokens
  | _ => .error .noEqualsSign

end Worksheet.Formula
