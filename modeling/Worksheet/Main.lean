import Std.Time.DateTime.Timestamp
import Worksheet.Command.Run

/-!
# The command line

Reads the files that the arguments name, runs the command, and writes what it has to write.
-/

namespace Worksheet.Command

/-- The values that arguments can hold a path in: the arguments themselves, and what follows an
equals sign. -/
def candidates (args : List String) : List String :=
  args ++ args.filterMap fun arg => (Arguments.splitValue arg).2

/-- The text of a file, if it can be read. -/
def readText? (path : String) : IO (Option String) := do
  try
    return some (← IO.FS.readFile path)
  catch _ =>
    return none

/-- Whether a path leads to a directory. -/
def isDirectory (path : String) : IO Bool := do
  try
    let place ← IO.FS.realPath path
    return ← place.isDir
  catch _ =>
    return false

/-- The files that arguments name, and the files of settings in the directories that they name. -/
def filesOf (args : List String) : IO Files := do
  let mut texts := []
  let mut directories := []
  for path in candidates args do
    if ← isDirectory path then
      directories := path :: directories
      let file := Path.within path Settings.fileName
      if let some text ← readText? file then texts := (file, text) :: texts
    else if let some text ← readText? path then texts := (path, text) :: texts
  return .ofList texts directories

/-- The time since the start of 1970, in microseconds. -/
def now : IO Nat := do
  let time ← Std.Time.Timestamp.now
  return (time.toNanosecondsSinceUnixEpoch.val / 1000).toNat

/-- The point in universal time at a number of microseconds since the start of 1970. -/
def momentOf (microseconds : Nat) : Option Moment :=
  let seconds := microseconds / 1000000
  let ofDay := seconds % 86400
  (Date.ofOrdinal? (719163 + seconds / 86400)).map fun date =>
    ⟨date, ofDay / 3600, ofDay / 60 % 60, ofDay % 60, microseconds % 1000000, some ⟨0⟩⟩

/-- The text of a point in time, as records carry it. -/
def timeText (m : Moment) : String :=
  String.ofList (m.date.isoChars ++ 'T' :: (Date.padded 2 m.hour ++ ':' ::
    (Date.padded 2 m.minute ++ ':' :: (Date.padded 2 m.second ++ '.' ::
      (Date.padded 6 m.microsecond ++ ['Z'])))))

/-- Random numbers that start from a number. -/
def randomFrom (start : Nat) : RandomSource where
  fraction n := .ofRatio false ((randNat (mkStdGen (start + n)) 0 (Nat.pow 2 53 - 1)).1)
    (Nat.pow 2 53)
  integer n low high :=
    low + ((randNat (mkStdGen (start + n)) 0 (high - low).toNat).1 : Int)
  fractionsDrawn := 0
  integersDrawn := 0

/-- Appends events to the journal in a directory. -/
def appendEvent (time directory : String) (e : Log.Event) : IO Unit := do
  match (⟨CodePoint.ofString time, e⟩ : Log.Record).line with
  | .error _ => return
  | .ok line =>
    IO.FS.createDirAll directory
    let file ← IO.FS.Handle.mk (Path.within directory Log.Journal.fileName) .append
    file.putStr (String.ofList line)

end Worksheet.Command

open Worksheet Worksheet.Command in
/-- Runs the program. -/
def main (args : List String) : IO UInt32 := do
  let microseconds ← now
  let some clock := momentOf microseconds | return 1
  let start ← IO.rand 0 (Nat.pow 2 31)
  let random (seed : Value) : RandomSource :=
    match seed with
    | .null => randomFrom start
    | .number (.int i) => randomFrom i.natAbs
    | v => randomFrom ((v.toText.toOption.getD "").hash.toNat)
  let environment : Environment := ⟨← filesOf args, clock, random, some 985⟩
  let (code, output) := Command.run environment args
  for (directory, e) in output.logged do
    appendEvent (timeText clock) directory e.truncated
  IO.print output.out
  IO.eprint output.err
  if let some fault := output.fault then IO.eprintln fault.message
  if code = 2 then IO.eprintln "Try '--help' for help."
  return code.toUInt32
