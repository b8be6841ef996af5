import Worksheet.Address.Coordinates
import Worksheet.Command.Arguments
import Worksheet.Command.Help
import Worksheet.Formula.References
import Worksheet.Log.Journal
import Worksheet.Settings
import Worksheet.Sheet.Recalculation

/-!
# Commands

The program's commands: evaluating a formula, listing the cells that it names, converting addresses,
and recalculating a sheet.  A command that is misused ends with code 2, and one that is refused or
fails with code 1; what it has written by then stays written.  A refusal is told.  A fault that no
command is prepared for ends the program as it is.
-/

namespace Worksheet.Command

/-- What a command is given besides its arguments. -/
structure Environment where
  files : Files
  clock : Moment
  /-- Random numbers that start from a seed; from anywhere, if it is null. -/
  random : Value → RandomSource
  /-- How deeply evaluation nests, if that is bounded. -/
  limit : Option Nat

/-- What commands are not prepared for. -/
inductive Fault where
  /-- A value that cannot be computed or written. -/
  | computation (cause : Failure)
  | document (fault : Yaml.Fault)
  | settings (fault : SettingsFault)
  /-- A directory where a file is to be read. -/
  | directoryAsFile (path : String)
  /-- A setting that is to name a directory and is no text. -/
  | directoryNotText (type : String)
  /-- A file where a directory is to be made, or on the way to it. -/
  | fileAsDirectory (directory : String) (onTheWay : Bool)
deriving DecidableEq

/-- What has happened. -/
def Fault.message : Fault → String
  | computation cause => cause.message
  | document fault => fault.message
  | settings fault => fault.message
  | directoryAsFile path => "[Errno 21] Is a directory: " ++ Text.quoted path
  | directoryNotText type => "expected str, bytes or os.PathLike object, not " ++ type
  | fileAsDirectory directory onTheWay =>
    (if onTheWay then "[Errno 20] Not a directory: " else "[Errno 17] File exists: ") ++
      Text.quoted directory

/-- What a command leaves behind. -/
structure Output where
  out : String
  err : String
  /-- Events for journals, with the directory of the journal. -/
  logged : List (String × Log.Event)
  /-- The fault that has ended the program, if one has. -/
  fault : Option Fault

/-- What a command starts from. -/
def Output.nothing : Output :=
  ⟨"", "", [], none⟩

/-- Why a command ends before its end. -/
inductive Stop where
  /-- It has done what it was asked for. -/
  | done
  /-- Its arguments make no sense. -/
  | misused
  /-- It cannot be carried out, for a reason that is told. -/
  | refused (message : String)
  /-- It is not prepared for what has happened. -/
  | failed (fault : Fault)

/-- A part of a command. -/
abbrev Action := ExceptT Stop (StateM Output)

namespace Action

/-- Writes a text. -/
def say (s : String) : Action Unit :=
  modify fun o => { o with out := o.out ++ s }

/-- Writes a line. -/
def sayLine (s : String) : Action Unit :=
  say (s ++ "\n")

/-- Ends the command unless there is a result. -/
def require (stop : Stop) : Option α → Action α
  | some a => pure a
  | none => throw stop

/-- Fails with the command where something else does. -/
def must (fault : ε → Fault) : Except ε α → Action α
  | .ok a => pure a
  | .error e => throw (.failed (fault e))

/-- The result of a computation. -/
def computed (r : Except Failure α) : Action α :=
  must .computation r

/-- Shows help and ends, if that is asked for. -/
def help (args : Arguments) (text : String) : Action Unit := do
  if args.has "--help" then
    say text
    throw .done

/-- The code with which a command ends, and what it has written. -/
def run (x : Action Unit) : Nat × Output :=
  let (r, o) := (ExceptT.run x).run .nothing
  match r with
  | .ok () | .error .done => (0, o)
  | .error .misused => (2, o)
  | .error (.refused message) => (1, { o with err := o.err ++ "Error: " ++ message ++ "\n" })
  | .error (.failed fault) => (1, { o with fault := some fault })

end Action

open Worksheet.Command.Action

variable (env : Environment)

/-! ## Options -/

/-- The option that shows help. -/
def helpOption : OptionSpec := ⟨"--help", false⟩

/-- The arguments of a command with some options, or its help. -/
def readArguments (specs : List OptionSpec) (text : String) (args : List String) :
    Action Arguments := do
  let args ← require .misused (Arguments.read? (helpOption :: specs) true args)
  help args text
  return args

/-- The single operand of a command. -/
def onlyOperand (args : Arguments) : Action String :=
  match args.operands with
  | [s] => pure s
  | _ => throw .misused

/-- The path that an option or operand gives; it has to lead somewhere. -/
def existing (path : String) : Action String := do
  let _ ← require .misused (env.files.kindOf path)
  return path

/-! ## Files -/

/-- The settings of a command. -/
def settings (path : Option String) : Action Settings :=
  match Settings.load env.files path with
  | .ok s => pure s
  | .error fault =>
    throw (if fault.isRefusal then .refused fault.message else .failed (.settings fault))

/-- The text of a key as the address of a cell. -/
def keyText : Value → Except Failure String
  | .text s => .ok s
  | .stamp shown _ => .ok shown
  | v => v.quoted

/-- The cells that a document holds, either all of it or what it has under `cells`. -/
def cellsOf (path : String) (doc : Value) : Except Stop (List (Value × Value)) :=
  if !doc.isSet then .ok []
  else
    match doc with
    | .dict entries =>
      let nested := entries.findSome? fun
        | (.text "cells", .dict inner) => some inner
        | _ => none
      .ok (nested.getD entries)
    | _ => .error (.refused (path ++ ": expected a mapping of cell address to value"))

/-- The cells in a file. -/
def loadCells (path : Option String) : Action (List (String × Value)) := do
  match path with
  | none => return []
  | some path =>
    let text ← require (.failed (.directoryAsFile (Path.plain path))) (env.files.text? path)
    let entries ← cellsOf path (← must .document (Yaml.load text))
    entries.mapM fun (k, v) => return (← computed (keyText k), v)

/-- The cell that an argument sets, written as an address, an equals sign and a value. -/
def override (item : String) : Except Stop (String × Value) :=
  match Arguments.splitValue item with
  | (_, none) =>
    .error (.refused ("Invalid --set format: " ++ Text.quoted item ++ ". Use A1=value."))
  | (key, some v) =>
    let address := Text.strip key
    if (Text.strip v).isEmpty then .ok (address, .text "")
    else
      match Yaml.load v with
      | .ok v => .ok (address, v)
      | .error .malformed => .ok (address, .text v)
      | .error fault => .error (.failed (.document fault))

/-! ## The journal -/

/-- The directory that a setting names, if one is set. -/
def directoryOf (v : Value) : Action (Option String) :=
  if !v.isSet then pure none
  else
    match v with
    | .text s => pure (some s)
    | v => throw (.failed (.directoryNotText (Settings.typeName v)))

/-- Logs events in the journal of a directory, if one is given; it has to be possible to make it. -/
def logEvents (directory : Option String) (events : List Log.Event) : Action Unit := do
  if let some directory := directory then
    if !env.files.hasRoomFor directory then
      throw (.failed (.fileAsDirectory (Path.plain directory)
        (env.files.text? directory).isNone))
    modify fun o => { o with logged := o.logged ++ events.map (directory, ·) }

/-! ## Evaluating a formula -/

/-- A value as JSON; what JSON has no form for is shown as text. -/
def jsonOf : Value → Except Failure Json
  | .null => .ok .null
  | .bool b => .ok (.bool b)
  | .number n => .ok (.number n)
  | .text s => .ok (.ofString s)
  | v => v.toText.map Json.ofString

/-- The random numbers that the settings ask for. -/
def randomSource (s : Settings) : Action RandomSource := do
  let _ ← must .settings s.isSeeded
  return env.random s.randomSeed

/-- Evaluates a formula. -/
def evaluate (s : Settings) (args : List String) : Action Unit := do
  let args ← readArguments
    [⟨"--context", true⟩, ⟨"--set", true⟩, ⟨"--strict", false⟩, ⟨"--seed", true⟩,
      ⟨"--json", false⟩]
    evalHelp args
  let formula ← onlyOperand args
  let context ← (args.value? "--context").mapM (existing env)
  let seed ← (args.value? "--seed").mapM fun seed => require .misused (integer? seed)
  let given ← loadCells env context
  let overrides ← (args.valuesOf "--set").mapM fun item => (override item : Except Stop _)
  let s := match seed with
    | some seed => { s with randomSeed := .number (.int seed) }
    | none => s
  let source ← randomSource env s
  let strict := args.has "--strict" || s.strictReferences.isSet
  let cells := Cells.ofList (given ++ overrides)
  let (outcome, _) := (Formula.evaluate strict env.clock env.limit cells (.text formula)).run source
  let failure := match outcome with
    | .ok _ => none
    | .error f => some f
  if let some f := failure then
    logEvents env (← directoryOf s.logDir)
      [Log.event .warning .evalFailed f.message (Log.cellContext none (some formula) [])
        (some f.kind.name)]
  if args.has "--json" then
    let v ← computed (jsonOf outcome.shown)
    let payload := Json.object [Json.entry "formula" (.ofString formula), Json.entry "value" v,
      Json.entry "error" (.ofOption (failure.map (·.kind.name))),
      Json.entry "message" (.ofString ((failure.map (·.message)).getD ""))]
    sayLine (← computed payload.renderIndented)
  else sayLine (← computed outcome.shown.display)

/-! ## References and addresses -/

/-- Lists the cells that a formula names. -/
def references (args : List String) : Action Unit := do
  let args ← readArguments [⟨"--json", false⟩] depsHelp args
  let found := Formula.referencedCells (← onlyOperand args)
  if args.has "--json" then sayLine (← computed (Json.array (found.map Json.ofString)).render)
  else found.forM sayLine

/-- Writes the address of a row and a column. -/
def encode (args : List String) : Action Unit := do
  let args ← readArguments [] encodeHelp args
  match args.operands with
  | [row, col] =>
    let row ← require .misused (integer? row)
    let col ← require .misused (integer? col)
    match Address.encodeValues (.number (.int row)) (.number (.int col)) with
    | .ok address => sayLine address
    | .error f => throw (.refused f.message)
  | _ => throw .misused

/-- Reads an address as a row and a column. -/
def decode (args : List String) : Action Unit := do
  let args ← readArguments [] decodeHelp args
  let s ← onlyOperand args
  match ← computed (Address.decode s) with
  | some a =>
    let row ← computed (Number.intText a.row)
    let col ← computed (Number.intText a.col)
    sayLine (row ++ " " ++ col)
  | none => throw (.refused ("Invalid cell address: " ++ Text.quoted s))

/-- Converts addresses. -/
def addresses (args : List String) : Action Unit := do
  let group ← require .misused (Arguments.read? [helpOption] false args)
  help group addrHelp
  match group.operands with
  | "encode" :: rest => encode rest
  | "decode" :: rest => decode rest
  | _ => throw .misused

/-! ## Recalculating a sheet -/

/-- Evaluates every cell in a file. -/
def recalculate (s : Settings) (args : List String) : Action Unit := do
  let args ← readArguments [⟨"--strict", false⟩, ⟨"--log-dir", true⟩, ⟨"--json", false⟩] recalcHelp
    args
  let path ← existing env (← onlyOperand args)
  let cells ← loadCells env (some path)
  let directory ← match args.value? "--log-dir" with
    | some "" | none => directoryOf s.logDir
    | some directory => pure (some directory)
  logEvents env directory []
  let source ← randomSource env s
  let sheet : Sheet := ⟨Sheet.cellsOfList cells, args.has "--strict" || s.strictReferences.isSet,
    env.clock, env.limit⟩
  let (events, values, session) := (Session.start sheet source).recalculate
  logEvents env directory events
  let values ← computed values
  let failures := session.failures
  if args.has "--json" then
    let shown ← values.mapM fun (a, v) => return Json.entry a (← computed (jsonOf v))
    let payload := Json.object [Json.entry "values" (.object shown),
      Json.entry "errors"
        (.object (failures.map fun (a, f) => Json.entry a (.ofString f.message)))]
    sayLine (← computed payload.renderIndented)
  else
    values.forM fun (a, v) => do sayLine (a ++ "\t" ++ (← computed v.display))
    if !failures.isEmpty then
      modify fun o => { o with err := o.err ++ toString failures.length ++ " error(s)\n" }

/-! ## The program -/

/-- The command of a name. -/
def command? : String → Option (Settings → List String → Action Unit)
  | "eval" => some (evaluate env)
  | "deps" => some fun _ => references
  | "addr" => some fun _ => addresses
  | "recalc" => some (recalculate env)
  | _ => none

/-- Carries out the command that the arguments of a command line ask for. -/
def carryOut (args : List String) : Action Unit := do
  let group ← require .misused
    (Arguments.read? [helpOption, ⟨"--version", false⟩, ⟨"--config", true⟩] false args)
  match (group.options.map (·.1)).find? fun name => name = "--help" || name = "--version" with
  | some "--help" => say helpText
  | some _ => say versionText
  | none =>
    let path ← (group.value? "--config").mapM (existing env)
    match group.operands with
    | [] => throw .misused
    | name :: rest =>
      let command ← require .misused (command? env name)
      command (← settings env path) rest

/-- The code with which the program ends, and what it has written. -/
def run (args : List String) : Nat × Output :=
  (carryOut env args).run

end Worksheet.Command
