import Spreadsheet.Sheet.Edit

/-!
# Sheets and files

Opening, importing, exporting and saving, over any file system. A sheet changes only with the success of
the file operation.
-/

namespace Spreadsheet

namespace Sheet

/-- Imports the text that a file was read as. -/
def importContents (s : Sheet) : Except FileFault String → Except Sheet.Error Nat × Sheet
  | .error fault => (.error (.file fault), s)
  | .ok text => s.importText text

/-- The new sheet of a file, from the text that it was read as. It starts in topological mode. -/
def ofContents (path : String) (contents : Except FileFault String) : Except Sheet.Error Sheet :=
  let (answer, s) := (Sheet.empty .topological).importContents contents
  answer.map fun _ => { s with path := some path, modified := false }

/-- Takes note that the sheet was written to a file. -/
def written (s : Sheet) (path : String) : Except FileFault Unit → Except Sheet.Error Unit × Sheet
  | .error fault => (.error (.file fault), s)
  | .ok () => (.ok (), { s with path := some path, modified := false })

variable {m : Type → Type} [Monad m] [Files m]

def importFile (s : Sheet) (path : String) : m (Except Sheet.Error Nat × Sheet) :=
  return s.importContents (← Files.readText path)

/-- Opens a file as a new sheet, to which the host then assigns the mode that it works in. The assignment
recalculates nothing. -/
def openFile (mode : Sheet.Mode) (path : String) : m (Except Sheet.Error Sheet) :=
  return (ofContents path (← Files.readText path)).map fun s => { s with mode }

/-- Writes the sheet to a file, which is its file from then on. -/
def exportFile (s : Sheet) (path : String) : m (Except Sheet.Error Unit × Sheet) :=
  return s.written path (← Files.writeText path s.csvText)

/-- Writes the sheet to its file and answers which one that is. -/
def save (s : Sheet) : m (Except Sheet.Error String × Sheet) :=
  match s.path with
  | none => return (.error .noPath, s)
  | some path => do
    let (answer, s) ← s.exportFile path
    return (answer.map fun _ => path, s)

end Sheet

end Spreadsheet
