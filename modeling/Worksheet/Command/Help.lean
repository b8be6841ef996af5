/-!
# Help texts

What each command says about itself.
-/

namespace Worksheet.Command

/-- The name of the program and its version. -/
def versionText : String := "sheetcalc, version 0.1.0\n"

/-- Lines with a line end after each. -/
def textOfLines (lines : List String) : String :=
  String.join (lines.map (· ++ "\n"))

/-- Help for the program. -/
def helpText : String :=
  textOfLines [
    "Usage: main [OPTIONS] COMMAND [ARGS]...",
    "",
    "  sheetcalc -- spreadsheet formula engine.",
    "",
    "Options:",
    "  --version      Show the version and exit.",
    "  --config PATH  A sheetcalc.yaml file or a directory containing one.",
    "  --help         Show this message and exit.",
    "",
    "Commands:",
    "  addr    Cell address conversion.",
    "  deps    List the cells FORMULA references, in order of first appearance.",
    "  eval    Evaluate FORMULA against a cell context.",
    "  recalc  Evaluate every cell of SHEET_FILE (yaml mapping of address ->..."]

/-- Help for evaluating a formula. -/
def evalHelp : String :=
  textOfLines [
    "Usage: main eval [OPTIONS] FORMULA",
    "",
    "  Evaluate FORMULA against a cell context.",
    "",
    "Options:",
    "  --context PATH  Yaml mapping of cell values.",
    "  --set TEXT      Set a cell as A1=value (repeatable).",
    "  --strict        Non-numeric cell text in arithmetic is an error.",
    "  --seed INTEGER  Seed for RANDOM/RANDBETWEEN.",
    "  --json          Output as JSON.",
    "  --help          Show this message and exit."]

/-- Help for listing the cells that a formula names. -/
def depsHelp : String :=
  textOfLines [
    "Usage: main deps [OPTIONS] FORMULA",
    "",
    "  List the cells FORMULA references, in order of first appearance.",
    "",
    "Options:",
    "  --json  Output as JSON.",
    "  --help  Show this message and exit."]

/-- Help for the commands about addresses. -/
def addrHelp : String :=
  textOfLines [
    "Usage: main addr [OPTIONS] COMMAND [ARGS]...",
    "",
    "  Cell address conversion.",
    "",
    "Options:",
    "  --help  Show this message and exit.",
    "",
    "Commands:",
    "  decode  Print the zero-based row and column of ADDRESS.",
    "  encode  Print the address of zero-based ROW and COL."]

/-- Help for writing an address. -/
def encodeHelp : String :=
  textOfLines [
    "Usage: main addr encode [OPTIONS] ROW COL",
    "",
    "  Print the address of zero-based ROW and COL.",
    "",
    "Options:",
    "  --help  Show this message and exit."]

/-- Help for reading an address. -/
def decodeHelp : String :=
  textOfLines [
    "Usage: main addr decode [OPTIONS] ADDRESS",
    "",
    "  Print the zero-based row and column of ADDRESS.",
    "",
    "Options:",
    "  --help  Show this message and exit."]

/-- Help for recalculating a sheet. -/
def recalcHelp : String :=
  textOfLines [
    "Usage: main recalc [OPTIONS] SHEET_FILE",
    "",
    "  Evaluate every cell of SHEET_FILE (yaml mapping of address -> input).",
    "",
    "Options:",
    "  --strict        Non-numeric cell text in arithmetic is an error.",
    "  --log-dir PATH  Write recalculation events to DIR/events.ndjson.",
    "  --json          Output as JSON.",
    "  --help          Show this message and exit."]

end Worksheet.Command
