import Spreadsheet.Files.Disk
import Spreadsheet.Main
import Spreadsheet.Proofs.Csv.LineBreaks
import Spreadsheet.Proofs.Csv.Sections
import Spreadsheet.Proofs.Formula.Alternation
import Spreadsheet.Proofs.Formula.Classification
import Spreadsheet.Proofs.Formula.Depth
import Spreadsheet.Proofs.Formula.Words
import Spreadsheet.Proofs.Graph.Countdown
import Spreadsheet.Proofs.Graph.Least
import Spreadsheet.Proofs.Graph.Loop
import Spreadsheet.Proofs.Graph.Relation
import Spreadsheet.Proofs.Graph.Visits
import Spreadsheet.Proofs.Graph.Worklist
import Spreadsheet.Proofs.Sheet.Addresses
import Spreadsheet.Proofs.Sheet.Calls
import Spreadsheet.Proofs.Sheet.Errors
import Spreadsheet.Proofs.Sheet.Export
import Spreadsheet.Proofs.Sheet.Footprint
import Spreadsheet.Proofs.Sheet.Inputs
import Spreadsheet.Proofs.Sheet.LoopShown
import Spreadsheet.Proofs.Sheet.Marks
import Spreadsheet.Proofs.Sheet.Merge
import Spreadsheet.Proofs.Sheet.Mirror
import Spreadsheet.Proofs.Sheet.Modes
import Spreadsheet.Proofs.Sheet.Numbers
import Spreadsheet.Proofs.Sheet.Pass
import Spreadsheet.Proofs.Sheet.Unsaved
import Spreadsheet.Proofs.Sheet.Warning
import Spreadsheet.Proofs.Store.Unseen
import Spreadsheet.Proofs.Walk
