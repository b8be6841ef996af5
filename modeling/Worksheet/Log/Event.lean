import Worksheet.Json.Basic

/-!
# Events

What happens during an evaluation, as records for a log: at which level, of which type, and in what
context.  Long texts in the context are cut before an event is logged.
-/

namespace Worksheet.Log

/-- How serious an event is. -/
inductive Level where
  | info
  | warning
  | error
deriving DecidableEq, Inhabited

/-- The name of a level in records. -/
def Level.name : Level → String
  | info => "info"
  | warning => "warning"
  | error => "error"

/-- The level with a name. -/
def Level.ofName? (name : String) : Option Level :=
  [Level.info, .warning, .error].find? (·.name = name)

/-- What an event is about. -/
inductive Topic where
  | evalFailed
  | recalcStarted
  | recalcCompleted
  | cellError
  | cycleDetected
deriving DecidableEq, Inhabited

/-- The name of a topic in records. -/
def Topic.name : Topic → String
  | evalFailed => "eval_failed"
  | recalcStarted => "recalc_started"
  | recalcCompleted => "recalc_completed"
  | cellError => "cell_error"
  | cycleDetected => "cycle_detected"

/-- The topic with a name. -/
def Topic.ofName? (name : String) : Option Topic :=
  [Topic.evalFailed, .recalcStarted, .recalcCompleted, .cellError, .cycleDetected].find?
    (·.name = name)

/-- The entries of an object. -/
abbrev Context := List (List CodePoint × Json)

/-! ## Cutting long texts -/

/-- The length up to which a text is kept whole. -/
def maxTextLength : Nat := 256

/-- What stands for the part of a text that is cut off. -/
def truncationMark : List CodePoint :=
  CodePoint.ofString "...[truncated]"

/-- A text, cut if it is too long. -/
def truncateText (s : List CodePoint) : List CodePoint :=
  if maxTextLength < s.length then s.take maxTextLength ++ truncationMark else s

mutual

/-- A value with its long texts cut, also within objects but not within arrays. -/
def truncate : Json → Json
  | .text s => .text (truncateText s)
  | .object entries => .object (truncateContext entries)
  | v => v

/-- A context with its long texts cut. -/
def truncateContext : Context → Context
  | [] => []
  | (k, v) :: rest => (k, truncate v) :: truncateContext rest

end

/-! ## Events -/

/-- An event, apart from the time at which it happens. -/
structure Event where
  /-- The version of the format of records. -/
  version : Int
  level : Level
  topic : Topic
  context : Context
  message : List CodePoint
  errorCode : Option (List CodePoint)

/-- The version of the format of records that is written. -/
def currentVersion : Int := 1

/-- An event with a message and a context. -/
def event (level : Level) (topic : Topic) (message : String) (context : Context)
    (errorCode : Option String) : Event :=
  ⟨currentVersion, level, topic, context, CodePoint.ofString message,
    errorCode.map CodePoint.ofString⟩

/-- The context of an event about a cell: its address and its formula, as far as they are known, and
further entries, which come before those in rank. -/
def cellContext (address formula : Option String) (extra : Context) : Context :=
  let known := [("addr", address), ("formula", formula)].filterMap fun (key, s) =>
    s.map fun s => Json.entry key (.ofString s)
  extra.foldl (fun context (key, v) => Json.put key v context) known

/-- The event with long texts in its context cut, as it is logged. -/
def Event.truncated (e : Event) : Event :=
  { e with context := truncateContext e.context }

mutual

/-- A value with null in place of each number that is not finite. -/
def withoutNonFinite : Json → Json
  | .number n => if n.isFinite then .number n else .null
  | .array items => .array (withoutNonFiniteItems items)
  | .object entries => .object (withoutNonFiniteEntries entries)
  | v => v

/-- Items with null in place of each number that is not finite. -/
def withoutNonFiniteItems : List Json → List Json
  | [] => []
  | v :: vs => withoutNonFinite v :: withoutNonFiniteItems vs

/-- Entries with null in place of each number that is not finite. -/
def withoutNonFiniteEntries : Context → Context
  | [] => []
  | (k, v) :: rest => (k, withoutNonFinite v) :: withoutNonFiniteEntries rest

end

/-- The fields of the record of an event, apart from its time. -/
def Event.fields (e : Event) : Context :=
  [Json.entry "schema_version" (.ofInt e.version), Json.entry "level" (.ofString e.level.name),
    Json.entry "event_type" (.ofString e.topic.name),
    Json.entry "context" (withoutNonFinite (.object e.context)),
    Json.entry "message" (.text e.message),
    Json.entry "error_code" ((e.errorCode.map Json.text).getD .null)]

/-- An event and the time at which it happened. -/
structure Record where
  time : List CodePoint
  event : Event

/-- A record as a JSON object. -/
def Record.toJson (r : Record) : Json :=
  .object (Json.entry "ts" (.text r.time) :: r.event.fields)

/-! ## Records from loose fields -/

/-- The integer that a value stands for as the version of a record. -/
def version? : Json → Option Int
  | .bool b => some (if b then 1 else 0)
  | .number (.int i) => some i
  | .number (.float x) => if x.isIntegral then x.truncate? else none
  | .text s =>
    match (CodePoint.toString? s).bind fun s => Decimal.Numeral.read? s.toList with
    | some n => if n.isInteger then some n.toInt else none
    | none => none
  | _ => none

/-- The record that fields make up.  A level and a topic are needed, and every field that is present
has to be of its type; other fields are passed over.  `now` is the time if none is given. -/
def Record.ofFields? (now : String) (fields : Context) : Option Record := do
  let field (key : String) := fields.lookup (CodePoint.ofString key)
  let textOf : Json → Option (List CodePoint)
    | .text s => some s
    | _ => none
  let version ← ((field "schema_version").map version?).getD (some currentVersion)
  let time ← ((field "ts").map textOf).getD (some (CodePoint.ofString now))
  let level ← Level.ofName? (← (← field "level").text?)
  let topic ← Topic.ofName? (← (← field "event_type").text?)
  let context ← match field "context" with
    | none => some []
    | some (.object entries) => some entries
    | some _ => none
  let message ← ((field "message").map textOf).getD (some [])
  let errorCode ← match field "error_code" with
    | none | some .null => some none
    | some v => (textOf v).map some
  return ⟨time, ⟨version, level, topic, context, message, errorCode⟩⟩

end Worksheet.Log
