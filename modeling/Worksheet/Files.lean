/-!
# Files

The files that a command can read, as texts by path.  A path names a file by parts that are
separated by slashes.  Its plain form has no empty parts and no parts that stay in place.
-/

namespace Worksheet

namespace Path

/-- The parts of a path that count. -/
def parts (path : String) : List String :=
  (path.splitOn "/").filter fun part => part ≠ "" && part ≠ "."

/-- The slashes in front of a path, in its plain form: two stay two, and more are one. -/
def root (path : String) : String :=
  match path.toList with
  | '/' :: '/' :: '/' :: _ => "/"
  | '/' :: '/' :: _ => "//"
  | '/' :: _ => "/"
  | _ => ""

/-- The plain form of a path. -/
def plain (path : String) : String :=
  let s := root path ++ "/".intercalate (parts path)
  if s.isEmpty then "." else s

/-- The plain form of the path of a file in a directory. -/
def within (directory name : String) : String :=
  plain (directory ++ "/" ++ name)

/-- Leaves out each part together with a step back that follows it. -/
def withoutSteps : List String → List String
  | [] => []
  | part :: rest =>
    match withoutSteps rest with
    | ".." :: rest => if part = ".." then part :: ".." :: rest else rest
    | rest => part :: rest

/-- Where a path leads to: its parts without steps back, after its root if it has one. -/
def target (path : String) : List String :=
  let steps := withoutSteps (parts path)
  if (root path).isEmpty then steps else "/" :: steps

end Path

/-- What a path leads to. -/
inductive PathKind where
  | file
  | directory
deriving DecidableEq, Inhabited

/-- Files by where they are, and further directories. -/
structure Files where
  texts : List (List String × String)
  directories : List (List String)

namespace Files

/-- Files by their paths, and further directories. -/
def ofList (texts : List (String × String)) (directories : List String) : Files :=
  ⟨texts.map fun (path, text) => (Path.target path, text), directories.map Path.target⟩

/-- What a path leads to, if to anything. -/
def kindOf (files : Files) (path : String) : Option PathKind :=
  let target := Path.target path
  if path.isEmpty then none
  else if (files.texts.lookup target).isSome then
    if path.endsWith "/" then none else some .file
  else if target.isEmpty || target ∈ files.directories ||
      files.texts.any (fun (place, _) => target.isPrefixOf place) then some .directory
  else none

/-- The text of a file. -/
def text? (files : Files) (path : String) : Option String :=
  files.texts.lookup (Path.target path)

/-- Whether a directory can be made where a path leads: no file is there or on the way. -/
def hasRoomFor (files : Files) (path : String) : Bool :=
  !files.texts.any fun (place, _) => place.isPrefixOf (Path.target path)

end Files

end Worksheet
