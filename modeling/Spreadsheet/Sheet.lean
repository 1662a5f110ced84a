import Spreadsheet.Graph.Loop
import Spreadsheet.Graph.Plan
import Spreadsheet.Store

/-!
# Sheets

A sheet is one spreadsheet being edited: its cells, the graph of what its formulas mention, the way in
which changes are passed on, the file that it belongs to, and whether it was modified since it was opened
or saved.
-/

namespace Spreadsheet

/-- How a change is passed on to the formulas that depend on it. -/
inductive Sheet.Mode where
  /-- In dependency order; cells on cycles become errors. -/
  | topological
  /-- In the order in which a depth-first walk meets the cells, each once. Cycles are not reported, and a
  cell may be computed before another one that it depends on. -/
  | depthFirst
deriving DecidableEq, Repr

namespace Sheet.Mode

def name : Sheet.Mode → String
  | .topological => "topological"
  | .depthFirst => "depth-first"

end Sheet.Mode

structure Sheet where
  cells : Store
  graph : Graph
  mode : Sheet.Mode
  path : Option String
  modified : Bool

namespace Sheet

def empty (mode : Sheet.Mode) : Sheet := ⟨∅, .empty, mode, none, false⟩

def cell? (s : Sheet) (r : Ref) : Option Cell := s.cells[r]?

/-- The cell of a name. A text that is no name has no cell. -/
def cellNamed? (s : Sheet) (name : String) : Option Cell := (Ref.ofName? name).bind s.cell?

/-- The text that a cell shows, empty where there is no cell. -/
def display (s : Sheet) (r : Ref) : String := ((s.cell? r).map Cell.display).getD ""

/-- The cells that the formula of a named cell mentions, in order. -/
def references (s : Sheet) (name : String) : List Ref :=
  (((s.cellNamed? name).bind Cell.formula).map Formula.references).getD []

/-- The cells whose formulas mention a cell, sorted. -/
def dependents (s : Sheet) (r : Ref) : List Ref := (s.graph.dependents r).toList

/-- Computes a formula on the sheet without storing it. -/
def evaluate (s : Sheet) (formula : String) : Value := Formula.value s.cells.values formula

end Sheet

end Spreadsheet
