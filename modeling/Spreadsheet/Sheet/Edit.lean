import Spreadsheet.Csv
import Spreadsheet.Files
import Spreadsheet.Sheet.Recalculation

/-!
# Edits

The operations on a sheet. Each runs its recalculation to the end before it answers, and an operation that
fails answers the cause and leaves the sheet as it was.
-/

namespace Spreadsheet

inductive Sheet.Error where
  | file (fault : FileFault)
  /-- A quote that was opened on the line is never closed. -/
  | unclosedQuote (line : Nat)
  | invalidReference (text : String)
  | emptyCsv
  | noPath
deriving DecidableEq, Repr

namespace Sheet.Error

def message : Sheet.Error → String
  | .file fault => "IO error: " ++ fault.message
  | .unclosedQuote line => "Parse error at line " ++ toString line ++ ": unterminated quoted field"
  | .invalidReference text => "Invalid cell reference: " ++ text
  | .emptyCsv => "CSV file is empty"
  | .noPath => "No file path set"

end Sheet.Error

namespace Csv

/-- The fields of a text that are not empty, each with its place, record by record. -/
def fields (text : String) : Except Sheet.Error (List (Ref × String)) :=
  match records text with
  | .error line => .error (.unclosedQuote line)
  | .ok records =>
    .ok (records.zipIdx.flatMap fun (record, row) =>
      (record.zipIdx.filter (·.1 ≠ "")).map fun (field, col) => (⟨row, col⟩, field))

end Csv

namespace Sheet

/-- Puts what was typed into a cell: a formula if it starts with `=`, else a literal. A formula is computed
before it is stored, so one that mentions its own cell reads the value from before. -/
def put (s : Sheet) (r : Ref) (input : String) : Sheet :=
  if (Formula.expression? input).isSome then
    { s with
      cells := s.cells.put r (Formula.value s.cells.values input) (some input)
      graph := s.graph.setPrecedents r (Formula.references input)
      modified := true }
  else
    { s with
      cells := s.cells.put r (.ofLiteral input) none
      graph := s.graph.clear r
      modified := true }

/-- Sets a cell from what was typed and recalculates its dependents. -/
def set (s : Sheet) (r : Ref) (input : String) : Report × Sheet := (s.put r input).propagate r

/-- Clears a cell. It stays, with an empty text. -/
def clear (s : Sheet) (r : Ref) : Report × Sheet := s.set r ""

/-- Sets the cell of a name. -/
def setNamed (s : Sheet) (name input : String) : Except Sheet.Error Report × Sheet :=
  match Ref.ofName? name with
  | none => (.error (.invalidReference name), s)
  | some r =>
    let (report, s) := s.set r input
    (.ok report, s)

/-- Creates a literal cell where there is none. Nothing is recalculated. -/
def init (s : Sheet) (r : Ref) (literal : String) : Sheet :=
  match s.cells.init? r literal with
  | some cells => { s with cells, modified := true }
  | none => s

/-- Creates a literal cell of a name unless it exists. -/
def initNamed (s : Sheet) (name literal : String) : Except Sheet.Error Unit × Sheet :=
  match Ref.ofName? name with
  | none => (.error (.invalidReference name), s)
  | some r => (.ok (), s.init r literal)

/-- Creates literal cells for the fields of a text, from A1 on. Cells that exist stay as they are. Answers
the number of fields that are not empty. -/
def importText (s : Sheet) (text : String) : Except Sheet.Error Nat × Sheet :=
  match Csv.fields text with
  | .error e => (.error e, s)
  | .ok [] => (.error .emptyCsv, s)
  | .ok fields => (.ok fields.length, fields.foldl (fun s (r, literal) => s.init r literal) s)

/-- The column and the row of the furthest filled cells, counted from zero. -/
def extent? (s : Sheet) : Option (Nat × Nat) :=
  match (s.cells.toList.filter (·.2.isFilled)).map Prod.fst with
  | [] => none
  | rs => some ((rs.map Ref.col).foldl max 0, (rs.map Ref.row).foldl max 0)

/-- The text to edit of the cell at a place, empty where there is no cell. -/
def inputAt (s : Sheet) (r : Ref) : String := ((s.cell? r).map Cell.input).getD ""

/-- The sheet as a grid of texts to edit, from A1 to the furthest filled cells. -/
def grid (s : Sheet) : List (List String) :=
  match s.extent? with
  | none => []
  | some (lastCol, lastRow) =>
    (List.range (lastRow + 1)).map fun row =>
      (List.range (lastCol + 1)).map fun col => s.inputAt ⟨row, col⟩

/-- The text of the sheet as comma-separated values. -/
def csvText (s : Sheet) : String := Csv.render s.grid

end Sheet

end Spreadsheet
