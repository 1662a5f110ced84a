import Spreadsheet.Files
import Spreadsheet.Settings.Statement
import Spreadsheet.Sheet
import Spreadsheet.Text.Blank

/-!
# Settings

The recalculation mode can be set in a settings file and on the command line. A file that cannot be used
never stops the program: it gives a warning and the settings are the usual ones.
-/

namespace Spreadsheet

namespace Sheet.Mode

/-- The mode of a name as settings files write it. -/
def ofName? : String → Option Sheet.Mode
  | "topological" => some .topological
  | "depth-first" => some .depthFirst
  | _ => none

/-- The mode of a name as a user may write it: with blanks around it, in any case, or in short. -/
def ofUserName? (text : String) : Option Sheet.Mode :=
  match String.ofList ((Text.trimChars text.toList).map Char.toLower) with
  | "dfs" => some .depthFirst
  | name => ofName? name

end Sheet.Mode

namespace Settings

/-- The mode that some statements set. The mode is a text, or a table whose only entry is empty and has the
mode for its key; that table can be written in one piece or by headers, whichever of them comes first. -/
def modeOf : List Statement → Option Sheet.Mode
  | [] => some .topological
  | [.assign ["recalc"] (.text name)] => Sheet.Mode.ofName? name
  | [.assign ["recalc"] (.entry name)] => Sheet.Mode.ofName? name
  | [.assign ["recalc", name] .blank] => Sheet.Mode.ofName? name
  | [.header ["recalc"], .assign [name] .blank] => Sheet.Mode.ofName? name
  | [.header ["recalc", name]] => Sheet.Mode.ofName? name
  | [.header ["recalc"], .header ["recalc", name]] => Sheet.Mode.ofName? name
  | [.header ["recalc", name], .header ["recalc"]] => Sheet.Mode.ofName? name
  | _ => none

/-- The mode that a settings file sets, if the file is valid. -/
def ofText? (text : String) : Option Sheet.Mode := (statements text.toList).bind modeOf

/-- Why a settings file is not used. -/
inductive Warning where
  | notFound (path : String)
  | tooLarge (path : String) (size : Nat)
  | unreadable (path : String) (fault : FileFault)
  | invalid (path : String)
deriving DecidableEq

/-- Larger files are not read. -/
def sizeLimit : Nat := 65536

def Warning.message : Warning → String
  | .notFound path => "Config file not found: " ++ path
  | .tooLarge path size =>
    "Refusing to read " ++ path ++ ": file too large (" ++ toString size ++ " bytes, max " ++
      toString sizeLimit ++ ")"
  | .unreadable path fault => "Failed to read " ++ path ++ ": " ++ fault.message
  | .invalid path => "Failed to parse " ++ path

/-- The mode of the settings file that is given, or else of the user's own file. Only a file that is given
has to exist. -/
def load {m : Type → Type} [Monad m] [Files m] (given user : Option String) :
    m (Sheet.Mode × Option Warning) := do
  let usual (warning : Option Warning) : Sheet.Mode × Option Warning := (.topological, warning)
  match given <|> user with
  | none => return usual none
  | some path =>
    match ← Files.size? path with
    | none => return usual (given.map .notFound)
    | some size =>
      if sizeLimit < size then return usual (some (.tooLarge path size))
      match ← Files.readText path with
      | .error fault => return usual (some (.unreadable path fault))
      | .ok text =>
        match ofText? text with
        | some mode => return (mode, none)
        | none => return usual (some (.invalid path))

end Settings

end Spreadsheet
