import Spreadsheet.Command.Run

/-!
# The program

The outermost layer: real files, the arguments, and the channels to print on.
-/

namespace Spreadsheet

/-- The fault of an error of the system. -/
def FileFault.ofError : IO.Error → FileFault
  | .noFileOrDirectory .. => .notFound
  | .inappropriateType _ 20 _ => .notDirectory
  | .inappropriateType _ 21 _ => .isDirectory
  | .invalidArgument _ 36 _ => .nameTooLong
  | .resourceExhausted _ 28 _ => .noSpace
  | .permissionDenied _ code details => .other (details ++ " (os error " ++ toString code ++ ")")
  | e => .other (toString e)

instance : Files IO where
  read path :=
    try return .ok (← IO.FS.readBinFile path)
    catch e => return .error (.ofError e)
  write path bytes :=
    try
      IO.FS.writeBinFile path bytes
      return .ok ()
    catch e => return .error (.ofError e)
  size? path :=
    try return some (← IO.FS.readBinFile path).size
    catch
    | .noFileOrDirectory .. => return none
    | _ => return some 0

/-- The directory of the user's settings. -/
def settingsDirectory : IO (Option String) := do
  match ← IO.getEnv "XDG_CONFIG_HOME" with
  | some dir => if dir.startsWith "/" then return some dir
  | none => pure ()
  return (← IO.getEnv "HOME").map (Command.joinPath · ".config")

end Spreadsheet

open Spreadsheet in
def main (args : List String) : IO UInt32 := do
  let user := (← settingsDirectory).map Command.userSettings
  let outcome ← Command.run user args
  IO.print outcome.output
  IO.eprint outcome.errors
  return if outcome.success then 0 else 1
