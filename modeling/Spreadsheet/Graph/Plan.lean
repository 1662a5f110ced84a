import Spreadsheet.Graph.Reach

/-!
# Plans of recalculation

A plan for a set of cells says in which order to compute them, so that each comes after its precedents in
the set. Of several cells that could come next the least is taken. What cannot be ordered this way lies on
a cycle or behind one: the cells on cycles are listed apart and are not computed, the others are ordered
after them.
-/

namespace Spreadsheet

structure Plan where
  /-- The cells to compute, precedents first. -/
  order : List Ref
  /-- The cells on cycles, sorted. -/
  cycles : List Ref
deriving DecidableEq

namespace Graph

/-- Whether a cell has a precedent among the cells to do. -/
def isBlocked (g : Graph) (todo : RefSet) (r : Ref) : Bool := (g.precedents r).toList.any (· ∈ todo)

/-- Takes the least cell that is not blocked, as long as there is one. Answers the cells taken, in order,
and the cells left over. -/
def takeReady (g : Graph) (todo : RefSet) : List Ref × RefSet :=
  match _h : todo.toList.find? (!g.isBlocked todo ·) with
  | some r =>
    let (order, left) := g.takeReady (todo.erase r)
    (r :: order, left)
  | none => ([], todo)
termination_by todo.size
decreasing_by
  have hr := List.mem_of_find?_eq_some _h
  have := List.length_pos_of_mem hr
  rw [Std.ExtTreeSet.length_toList] at this
  rw [Std.ExtTreeSet.size_erase, if_pos (Std.ExtTreeSet.mem_iff_contains.1 (Std.ExtTreeSet.mem_toList.1 hr))]
  omega

/-- The plan for a set of cells. Only edges inside the set count. -/
def plan (g : Graph) (cells : RefSet) : Plan :=
  let (order, left) := g.takeReady cells
  let cycles := left.toList.filter (g.onCycleIn left)
  let behind : RefSet := .ofList (left.toList.filter (!cycles.contains ·))
  ⟨order ++ (g.takeReady behind).1, cycles⟩

end Graph

end Spreadsheet
