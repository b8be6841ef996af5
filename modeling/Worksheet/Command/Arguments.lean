import Worksheet.Text.Blank
import Worksheet.Decimal.Numeral
import Worksheet.Number

/-!
# Command lines

The arguments of a command are options, which start with two hyphens, and operands.  An option takes
a value or is a flag.  Two hyphens alone end the options, so that operands after them can start with
a hyphen.
-/

namespace Worksheet.Command

/-- An option by its name with the hyphens, and whether it takes a value. -/
structure OptionSpec where
  name : String
  takesValue : Bool

/-- What the arguments of a command say. -/
structure Arguments where
  /-- The options with their values, in order; the value of a flag is empty. -/
  options : List (String × String)
  operands : List String
deriving Inhabited

namespace Arguments

/-- Splits an option at its first equals sign. -/
def splitValue (arg : String) : String × Option String :=
  let cs := arg.toList
  let name := cs.takeWhile (· ≠ '=')
  match cs.drop name.length with
  | [] => (arg, none)
  | _ :: v => (String.ofList name, some (String.ofList v))

/-- Whether an argument is an option. -/
def isOption (arg : String) : Bool :=
  arg.startsWith "-" && arg ≠ "-"

/-- Reads arguments; nothing if they are misused.  Unless `interspersed`, the first operand ends the
options. -/
def read? (specs : List OptionSpec) (interspersed : Bool) : List String → Option Arguments
  | [] => some ⟨[], []⟩
  | arg :: rest =>
    if arg = "--" then some ⟨[], rest⟩
    else if isOption arg then
      let (name, given) := splitValue arg
      match specs.find? (·.name = name), given, rest with
      | some spec, some v, rest =>
        if spec.takesValue then (read? specs interspersed rest).map (addOption name v) else none
      | some spec, none, rest =>
        if !spec.takesValue then (read? specs interspersed rest).map (addOption name "")
        else
          match rest with
          | v :: rest => (read? specs interspersed rest).map (addOption name v)
          | [] => none
      | none, _, _ => none
    else if interspersed then
      (read? specs interspersed rest).map fun a => { a with operands := arg :: a.operands }
    else some ⟨[], arg :: rest⟩
where
  addOption (name v : String) (a : Arguments) : Arguments :=
    { a with options := (name, v) :: a.options }

/-- Whether an option is given. -/
def has (a : Arguments) (name : String) : Bool :=
  a.options.any (·.1 = name)

/-- The values of an option, in order. -/
def valuesOf (a : Arguments) (name : String) : List String :=
  (a.options.filter (·.1 = name)).map (·.2)

/-- The value of an option; the last one counts. -/
def value? (a : Arguments) (name : String) : Option String :=
  (a.valuesOf name).getLast?

end Arguments

/-- Whether digits are separated by single underscores at most, which are left out. -/
def withoutUnderscores? : List Char → Option (List Char)
  | [] => some []
  | ['_'] => none
  | '_' :: '_' :: _ => none
  | '_' :: cs => withoutUnderscores? cs
  | c :: cs => (withoutUnderscores? cs).map (c :: ·)

/-- The integer that an argument is, with any blanks around it. -/
def integer? (arg : String) : Option Int := do
  let (negative, digits) := Decimal.spanSign (Text.trimBlanks arg.toList)
  if digits.head? = some '_' then none
  let (ds, rest) := Decimal.spanDigits (← withoutUnderscores? digits)
  if ds.isEmpty || !rest.isEmpty || Number.maxDigits < ds.length then none
  let n : Int := Decimal.ofDigits ds
  return if negative then -n else n

end Worksheet.Command
