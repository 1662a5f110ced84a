import Spreadsheet.Sheet

/-!
# Recalculation

After a change the formulas that it reaches are computed anew. In topological mode a plan orders them and
the cells on cycles are marked; in depth-first mode they are computed as a walk from the changed cell
meets them. A full recalculation plans for all formulas, in either mode.
-/

namespace Spreadsheet

/-- What a recalculation did. -/
structure Report where
  /-- The number of formula cells computed. -/
  recomputed : Nat
  /-- The cells found on cycles, sorted. -/
  cycles : List Ref
  /-- A path from the first of them into a loop. -/
  loop : Option (List Ref)
deriving DecidableEq

namespace Report

/-- The warning about a cycle, if one was found. -/
def warning? (r : Report) : Option String :=
  match r.cycles, r.loop with
  | [], _ => none
  | _, some path => some ("circular dependency: " ++ " -> ".intercalate (path.map Ref.name))
  | first :: _, none => some ("circular dependency through " ++ first.name)

end Report

namespace Sheet

/-- Marks the cells on cycles and computes the others in order. -/
def follow (s : Sheet) (plan : Plan) : Report × Sheet :=
  let marked := plan.cycles.foldl (fun cells r => cells.replaceValue r (.error .cyclicDependency)) s.cells
  let (recomputed, cells) := Store.recomputeAll marked plan.order
  (⟨recomputed, plan.cycles, plan.cycles.head?.bind s.graph.loop?⟩, { s with cells })

/-- Computes all formulas, in dependency order. -/
def recalculate (s : Sheet) : Report × Sheet := s.follow (s.graph.plan (.ofList s.cells.formulaCells))

/-- Passes a change of a cell on to the formulas that it reaches. -/
def propagate (s : Sheet) (changed : Ref) : Report × Sheet :=
  match s.mode with
  | .topological => s.follow (s.graph.plan (s.graph.affected changed))
  | .depthFirst =>
    let met := s.graph.discover [changed] (s.graph.formulaCells.erase changed)
    let (recomputed, cells) := s.cells.recomputeAll met
    (⟨recomputed, [], none⟩, { s with cells })

/-- Changes the mode. All formulas are computed anew if it is another one. -/
def setMode (s : Sheet) (mode : Sheet.Mode) : Option Report × Sheet :=
  if s.mode = mode then (none, s)
  else
    let (report, s) := { s with mode }.recalculate
    (some report, s)

end Sheet

end Spreadsheet
