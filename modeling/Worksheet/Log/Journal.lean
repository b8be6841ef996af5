import Worksheet.Json.Read
import Worksheet.Json.Render
import Worksheet.Log.Event
import Worksheet.Text.Utf8
import Worksheet.Text.Lines

/-!
# The journal

A journal is a file to which the record of each event is appended as one line of JSON.  Reading
looks at the end of the file only and passes over every line that is no JSON object, so a damaged
line does not hide the others.
-/

namespace Worksheet.Log

/-- A file of records. -/
structure Journal where
  /-- The bytes of the file, if there is one. -/
  content : Option (List UInt8)
  /-- How many bytes at the end of the file are read. -/
  tailBytes : Int

/-- The name of the file in its directory. -/
def Journal.fileName : String := "events.ndjson"

/-- How many bytes at the end of a file are read if nothing else is asked for. -/
def defaultTailBytes : Int := 2 * 1024 * 1024

/-- How many records are read if nothing else is asked for. -/
def defaultLimit : Int := 200

/-- Why a record is not written. -/
inductive WriteFault where
  /-- The context is nested too deeply. -/
  | nestedTooDeeply
  /-- An integer has too many digits. -/
  | integerTooLong
deriving DecidableEq, Inhabited

/-- How deeply the values in a context nest that is written. -/
def maxContextHeight : Nat := 255

/-- The line of a record, with its keys in order. -/
def Record.line (r : Record) : Except WriteFault (List Char) :=
  if maxContextHeight < Json.heightEntries r.event.context then .error .nestedTooDeeply
  else
    match r.toJson.sorted.compact with
    | .ok cs => .ok (cs ++ ['\n'])
    | .error _ => .error .integerTooLong

namespace Journal

/-- Appends bytes to the file. -/
def append (j : Journal) (bytes : List UInt8) : Journal :=
  { j with content := some (j.content.getD [] ++ bytes) }

/-- Appends the record of an event. -/
def write (j : Journal) (r : Record) : Except WriteFault Journal := do
  return j.append (Text.utf8Bytes (← r.line))

/-- Logs an event: long texts are cut, and an event that cannot be written is dropped. -/
def emit (j : Journal) (r : Record) : Journal :=
  match j.write { r with event := r.event.truncated } with
  | .ok j => j
  | .error _ => j

/-- The bytes after the first line feed. -/
def afterLineFeed (bytes : List UInt8) : List UInt8 :=
  (bytes.dropWhile (· ≠ 10)).drop 1

/-- The bytes at the end of the file that are read.  Unless they are the whole file, the first line
is left out, since it can be cut in half. -/
def tail (j : Journal) : List UInt8 :=
  let bytes := j.content.getD []
  let start := (bytes.length - j.tailBytes).toNat
  if start = 0 then bytes else afterLineFeed (bytes.drop start)

/-- The JSON object in a line, if it holds one. -/
def objectOfLine (line : List Char) : Except Json.Fault (Option Json) :=
  match Json.read line with
  | .ok v => .ok (if v.isObject then some v else none)
  | .error .malformed => .ok none
  | .error fault => .error fault

/-- The records at the end of the file, oldest first. -/
def records (j : Journal) : Except Json.Fault (List Json) := do
  return (← (Text.lines (Text.utf8Decode j.tail)).mapM objectOfLine).filterMap id

/-- Whether a record has a value under a key, if one is asked for. -/
def hasField (key : String) (wanted : Option String) (record : Json) : Bool :=
  match wanted with
  | none => true
  | some value =>
    match record.get? key with
    | some (.text s) => s == CodePoint.ofString value
    | _ => false

/-- The first items of a list, or all but some of the last ones if the limit is negative. -/
def takeUpTo (limit : Int) (l : List α) : List α :=
  if limit < 0 then l.take (l.length - limit.natAbs) else l.take limit.toNat

/-- The records of a level and a topic, newest first. -/
def read (j : Journal) (level topic : Option String) (limit : Int) :
    Except Json.Fault (List Json) := do
  let found := (← j.records).filter fun r =>
    hasField "level" level r && hasField "event_type" topic r
  return takeUpTo limit found.reverse

end Journal

end Worksheet.Log
