/-!
# Command line

The options of the program, read from left to right. Reading stops at the first argument that cannot be
used, or at a request for help.
-/

namespace Spreadsheet

namespace Command

/-- The options that take a value. -/
inductive Flag where
  | formula
  | edit
  | output
  | settings
  | mode
deriving DecidableEq

namespace Flag

def ofArgument? : String → Option Flag
  | "-c" | "--command" => some .formula
  | "-s" | "--set" => some .edit
  | "-o" | "--output" => some .output
  | "--config" => some .settings
  | "--recalc" => some .mode
  | _ => none

/-- The complaint about a missing value. -/
def complaint : Flag → String
  | .formula => "--command requires a formula"
  | .edit => "--set requires REF=INPUT"
  | .output => "--output requires a file path"
  | .settings => "--config requires a file path"
  | .mode => "--recalc requires a value"

end Flag

structure Options where
  /-- The file to import. -/
  file : Option String
  /-- The formula to evaluate. -/
  formula : Option String
  /-- The edits to apply, in order. -/
  edits : List String
  /-- The file to export to. -/
  output : Option String
  /-- The settings file. -/
  settings : Option String
  /-- The name of the recalculation mode. -/
  mode : Option String

namespace Options

def empty : Options := ⟨none, none, [], none, none, none⟩

/-- Takes the value of an option. A later value replaces an earlier one; edits add up. -/
def set (o : Options) : Flag → String → Options
  | .formula, v => { o with formula := some v }
  | .edit, v => { o with edits := o.edits ++ [v] }
  | .output, v => { o with output := some v }
  | .settings, v => { o with settings := some v }
  | .mode, v => { o with mode := some v }

end Options

/-- Why the program does not run. -/
inductive Stop where
  | help
  | missingValue (flag : Flag)
  | unknownOption (arg : String)
  | unexpectedArgument (arg : String)
deriving DecidableEq

/-- Reads the arguments that follow the ones already read. -/
def parseFrom : Options → List String → Except Stop Options
  | o, [] => .ok o
  | o, arg :: args =>
    if arg = "-h" ∨ arg = "--help" then .error .help
    else
      match Flag.ofArgument? arg, args with
      | some flag, [] => .error (.missingValue flag)
      | some flag, v :: args => parseFrom (o.set flag v) args
      | none, args =>
        if arg.startsWith "-" then .error (.unknownOption arg)
        else
          match o.file with
          | none => parseFrom { o with file := some arg } args
          | some _ => .error (.unexpectedArgument arg)

/-- Reads the arguments of the program. -/
def parse (args : List String) : Except Stop Options := parseFrom .empty args

def usageLines : List String := [
  "Usage: sheetcalc [OPTIONS] [FILE]",
  "",
  "Arguments:",
  "  [FILE]                    CSV file to import",
  "",
  "Options:",
  "  -c, --command <FORMULA>   Evaluate a formula against the sheet and print it ('=' optional)",
  "  -s, --set <REF=INPUT>     Apply an edit before output (can be repeated)",
  "  -o, --output <FILE>       Export the sheet to a CSV file",
  "  --config <FILE>           Settings file (default: <config dir>/sheetcalc/config.toml)",
  "  --recalc <MODE>           Recalculation mode: topological | depth-first",
  "  -h, --help                Print help"]

def usage : String := String.join (usageLines.map (· ++ "\n"))

/-- What is printed when the program does not run. -/
def Stop.message : Stop → String
  | .help => usage
  | .missingValue flag => "Error: " ++ flag.complaint ++ "\n"
  | .unknownOption arg => "Error: Unknown option: " ++ arg ++ "\n" ++ usage
  | .unexpectedArgument arg => "Error: Unexpected argument: " ++ arg ++ "\n" ++ usage

end Command

end Spreadsheet
