import Worksheet.Files
import Worksheet.Sorting
import Worksheet.Yaml.Resolve

/-!
# Settings

The settings of the program.  A document can override them: it has to be a mapping with no keys but
the known ones, and a document that is null, false, zero or empty overrides nothing.
-/

namespace Worksheet

/-- The settings, each any value that a document can hold. -/
structure Settings where
  /-- Whether text from a cell is refused in arithmetic. -/
  strictReferences : Value
  /-- Where random numbers start, if they are to be the same in each run. -/
  randomSeed : Value
  /-- The directory of the journal, if events are to be logged. -/
  logDir : Value
  /-- Whether each record is forced to disk. -/
  loggingFsync : Value

/-- Why two keys cannot be put in order. -/
inductive KeyClash where
  /-- Keys of types that have no order with each other. -/
  | types (later earlier : String)
  /-- A date and a time. -/
  | dateAndTime
  /-- A time with a distance from universal time, and one without. -/
  | zones
deriving DecidableEq

/-- Why settings cannot be read from a document. -/
inductive SettingsFault where
  | notMapping (path type : String)
  | unknownKeys (path : String) (shown : List String)
  /-- Unknown keys that cannot be listed in order. -/
  | unorderedKeys (clash : KeyClash)
  /-- An unknown key that cannot be written. -/
  | unwritableKey (cause : Failure)
  /-- A random seed of a type that seeds nothing. -/
  | unusableSeed
  | document (fault : Yaml.Fault)
deriving DecidableEq

namespace Settings

/-- The settings that hold if no document overrides them. -/
def initial : Settings where
  strictReferences := .bool false
  randomSeed := .null
  logDir := .null
  loggingFsync := .bool false

/-- The name of the file of settings in a directory. -/
def fileName : String := "sheetcalc.yaml"

/-- The settings by their keys, in order. -/
def entries (s : Settings) : List (String × Value) :=
  [("log_dir", s.logDir), ("logging_fsync", s.loggingFsync), ("random_seed", s.randomSeed),
    ("strict_references", s.strictReferences)]

/-- The known keys, in order. -/
def keys : List String :=
  initial.entries.map (·.1)

/-- The settings with the one of a key replaced. -/
def set (s : Settings) (key : String) (v : Value) : Settings :=
  if key = "log_dir" then { s with logDir := v }
  else if key = "logging_fsync" then { s with loggingFsync := v }
  else if key = "random_seed" then { s with randomSeed := v }
  else if key = "strict_references" then { s with strictReferences := v }
  else s

/-- The name of the type of a value. -/
def typeName : Value → String
  | .null => "NoneType"
  | .bool _ => "bool"
  | .number (.int _) => "int"
  | .number (.float _) => "float"
  | .text _ => "str"
  | .list _ => "list"
  | .dict _ => "dict"
  | .stamp shown _ => if shown.length = 10 then "date" else "datetime"

/-! ## Unknown keys -/

/-- Kinds of keys.  The keys of a kind can be put in order. -/
inductive KeyKind where
  /-- Numbers and truth values. -/
  | number
  | text
  | time (kind : Yaml.TimeKind)
deriving DecidableEq

/-- The kind of a key, if it can be put in order with others at all. -/
def keyKind? : Value → Option KeyKind
  | .bool _ | .number _ => some .number
  | .text _ => some .text
  | .stamp shown quoted => (Yaml.timestamp? (.stamp shown quoted)).map fun t => .time t.kind
  | .null | .list _ | .dict _ => none

/-- Whether a key may stand before another one of its kind. -/
def keyLE (a b : Value) : Bool :=
  match a, b with
  | .text s, .text t => !decide (t < s)
  | .stamp .., .stamp .. =>
    match Yaml.timestamp? a, Yaml.timestamp? b with
    | some s, some t => s.position ≤ t.position
    | _, _ => true
  | a, b =>
    match Yaml.keyNumber? a, Yaml.keyNumber? b with
    | some m, some n => n.compare? m != some .lt
    | _, _ => true

/-- What keeps two keys from being put in order. -/
def clash (earlier later : Value) : KeyClash :=
  let name (v : Value) : String :=
    match v with
    | .stamp .. => "datetime." ++ typeName v
    | v => typeName v
  match keyKind? earlier, keyKind? later with
  | some (.time s), some (.time t) =>
    if s = .date || t = .date then .dateAndTime else .zones
  | _, _ => .types (name later) (name earlier)

/-- Whether two keys can be put in order: they are of one kind. -/
def areComparable (a b : Value) : Bool :=
  (keyKind? a).isSome && keyKind? a = keyKind? b

/-- Keys in order, or what keeps the first two neighbours from being put in order. -/
def orderKeys : List Value → Except KeyClash (List Value)
  | a :: b :: rest =>
    if areComparable a b then (orderKeys (b :: rest)).map (insertSorted keyLE a)
    else .error (clash a b)
  | short => .ok short

/-- Whether a key of a document is that of a setting. -/
def isKnown : Value → Bool
  | .text s => keys.contains s
  | _ => false

/-- The keys of a document that are those of no setting. -/
def unknownKeys (given : List (Value × Value)) : List Value :=
  (given.map (·.1)).filter fun k => !isKnown k

/-- What is wrong with a document that has unknown keys: they are listed in order. -/
def unknownFault (path : String) (unknown : List Value) : SettingsFault :=
  match orderKeys unknown with
  | .error clash => .unorderedKeys clash
  | .ok ordered =>
    match ordered.mapM Value.quoted with
    | .ok shown => .unknownKeys path shown
    | .error cause => .unwritableKey cause

/-! ## Documents -/

/-- The settings with those replaced that a document gives. -/
def overridden (s : Settings) (given : List (Value × Value)) : Settings :=
  given.foldl (fun s (k, v) =>
    match k with
    | .text key => s.set key v
    | _ => s) s

/-- The settings that a document leads to; `path` names its file in messages. -/
def ofDocument (path : String) (doc : Value) : Except SettingsFault Settings :=
  if !doc.isSet then .ok initial
  else
    match doc with
    | .dict given =>
      let unknown := unknownKeys given
      if unknown.isEmpty then .ok (initial.overridden given)
      else .error (unknownFault path unknown)
    | doc => .error (.notMapping path (typeName doc))

/-- Where the settings are that a path leads to: in the file of settings, if it is a directory. -/
def place (files : Files) (path : String) : String :=
  if files.kindOf path = some .directory then Path.within path fileName else Path.plain path

/-- The settings in a file or in the file of settings of a directory, with a reader of documents;
the initial ones if there is no such file. -/
def loadBy (read : String → Except Yaml.Fault Value) (files : Files) :
    Option String → Except SettingsFault Settings
  | none => .ok initial
  | some path =>
    match files.text? (place files path) with
    | none => .ok initial
    | some text => do ofDocument (place files path) (← (read text).mapError .document)

/-- The settings in a file or in the file of settings of a directory. -/
def load : Files → Option String → Except SettingsFault Settings :=
  loadBy Yaml.load

/-- Whether the random numbers start from a seed, and whether that is possible. -/
def isSeeded (s : Settings) : Except SettingsFault Bool :=
  match s.randomSeed with
  | .null => .ok false
  | .bool _ | .number _ | .text _ => .ok true
  | _ => .error .unusableSeed

end Settings

/-- What is wrong with two keys. -/
def KeyClash.message : KeyClash → String
  | types later earlier =>
    "'<' not supported between instances of '" ++ later ++ "' and '" ++ earlier ++ "'"
  | dateAndTime => "can't compare datetime.datetime to datetime.date"
  | zones => "can't compare offset-naive and offset-aware datetimes"

namespace SettingsFault

/-- What is wrong with settings. -/
def message : SettingsFault → String
  | notMapping path type => path ++ ": expected a mapping, got " ++ type
  | unknownKeys path shown =>
    path ++ ": unknown config keys [" ++ ", ".intercalate shown ++ "]. Known: [" ++
      ", ".intercalate (Settings.keys.map Text.quoted) ++ "]"
  | unorderedKeys clash => clash.message
  | unwritableKey cause => cause.message
  | unusableSeed =>
    "The only supported seed types are: None,\nint, float, str, bytes, and bytearray."
  | document fault => fault.message

/-- Whether a document is refused for what is in it.  With any other fault, the program fails. -/
def isRefusal : SettingsFault → Bool
  | notMapping .. | unknownKeys .. | unwritableKey _ => true
  | unorderedKeys _ | unusableSeed | document .malformed => false
  | document _ => true

end SettingsFault

end Worksheet
