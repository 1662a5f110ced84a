import Spreadsheet.Command.Options
import Spreadsheet.Ref.Parse
import Spreadsheet.Settings
import Spreadsheet.Sheet.File

/-!
# A run of the program

The sheet is imported, edited in order, asked for a formula, and exported or printed. Problems of the
settings file are warnings; the first other failure ends the run. The run is written over any file system.
-/

namespace Spreadsheet

namespace Command

/-- What a run leaves: whether it succeeded, and the texts printed on both channels. -/
structure Outcome where
  success : Bool
  output : String
  errors : String

/-- Why a run ends early. -/
inductive Failure where
  | unknownMode (name : String)
  | importing (path : String) (cause : Sheet.Error)
  /-- An edit without an equals sign. -/
  | malformedEdit (edit : String)
  /-- An edit of something that is not a cell. -/
  | badReference (edit : String) (cause : Formula.Error)
  | exporting (path : String) (cause : Sheet.Error)

/-- The message of an error with those of its causes. -/
def chain : Sheet.Error → String
  | .file fault => (Sheet.Error.file fault).message ++ ": " ++ fault.message
  | e => e.message

def Failure.message : Failure → String
  | .unknownMode name => "unknown recalculation mode: " ++ name
  | .importing path cause => "failed to import " ++ path ++ ": " ++ chain cause
  | .malformedEdit edit => "expected REF=INPUT, got " ++ Text.quoted edit
  | .badReference edit cause => "in --set " ++ Text.quoted edit ++ ": " ++ cause.message
  | .exporting path cause => "failed to export " ++ path ++ ": " ++ chain cause

/-- The mode to use: the one that is named, or else the one from the settings file. -/
def modeFrom (settings : Sheet.Mode) : Option String → Except Failure Sheet.Mode
  | none => .ok settings
  | some name =>
    match Sheet.Mode.ofUserName? name with
    | some mode => .ok mode
    | none => .error (.unknownMode name)

/-- The reference and the input of an edit, which the first equals sign separates. -/
def splitEdit? (edit : String) : Option (String × String) :=
  let cs := edit.toList
  let name := cs.takeWhile (· ≠ '=')
  match cs.drop name.length with
  | _ :: input => some (String.ofList name, String.ofList input)
  | [] => none

def applyEdit (s : Sheet) (edit : String) : Except Failure Sheet :=
  match splitEdit? edit with
  | none => .error (.malformedEdit edit)
  | some (name, input) =>
    match Ref.parse (Text.trim name) with
    | .error e => .error (.badReference edit e)
    | .ok r => .ok (s.set r input).2

/-- The formula to evaluate, whose equals sign may be left out. -/
def formulaOf (command : String) : String :=
  if (Formula.expression? command).isSome then command else "=" ++ command

variable {m : Type → Type} [Monad m] [Files m]

/-- The sheet with the file imported, if one is given. -/
def importStep (s : Sheet) : Option String → m (Except Failure Sheet)
  | none => return .ok s
  | some path => do
    match ← s.importFile path with
    | (.ok _, s) => return .ok s
    | (.error e, _) => return .error (.importing path e)

/-- The last part of a run: exporting, or printing the sheet unless a formula was asked for. -/
def exportStep (o : Options) (s : Sheet) : m (Except Failure (String × String)) :=
  match o.output with
  | none => return .ok (if o.formula.isNone then s.csvText else "", "")
  | some path => do
    match ← s.exportFile path with
    | (.ok (), _) => return .ok ("", "Exported to " ++ path ++ "\n")
    | (.error e, _) => return .error (.exporting path e)

/-- Runs the program with the options read from its arguments. `user` is the user's own settings file. -/
def runWith (user : Option String) (o : Options) : m Outcome := do
  let (mode, warning) ← Settings.load o.settings user
  let warnings := (warning.map fun w => "Warning: " ++ w.message ++ "\n").getD ""
  let failed (output : String) (e : Failure) : Outcome :=
    ⟨false, output, warnings ++ "Error: " ++ e.message ++ "\n"⟩
  match modeFrom mode o.mode with
  | .error e => return failed "" e
  | .ok mode =>
    match ← importStep (Sheet.empty mode) o.file with
    | .error e => return failed "" e
    | .ok s =>
      match o.edits.foldlM applyEdit s with
      | .error e => return failed "" e
      | .ok s =>
        let answer := o.formula.map fun command => s.evaluate (formulaOf command)
        let printed := (answer.map fun v => v.display ++ "\n").getD ""
        match ← exportStep o s with
        | .error e => return failed printed e
        | .ok (output, errors) =>
          return ⟨!answer.any Value.isError, printed ++ output, warnings ++ errors⟩

/-- Runs the program. -/
def run (user : Option String) (args : List String) : m Outcome :=
  match parse args with
  | .ok o => runWith user o
  | .error stop => return ⟨stop = .help, "", stop.message⟩

/-- The path of an entry of a directory. -/
def joinPath (directory name : String) : String :=
  if directory = "" ∨ directory.endsWith "/" then directory ++ name else directory ++ "/" ++ name

/-- The user's settings file in the directory for settings. -/
def userSettings (directory : String) : String := joinPath directory "sheetcalc/config.toml"

end Command

end Spreadsheet
