import Spreadsheet.Graph

/-!
# Loops

To show a cycle to the user, a walk goes from a cell to its precedents, theirs, and so on, the least
first, until it comes to a cell that lies on its own path. The path with that cell once more at its end
shows the loop. A cell is entered once: what it leads to without a loop stays without one.
-/

namespace Spreadsheet

namespace Graph

/-- The cells of a path. -/
def cellsOf (path : List (Ref × List Ref)) : List Ref := path.map Prod.fst

/-- The cells of a path and the precedents still to be tried, taken together. -/
def stepsOf : (path : List (Ref × List Ref)) → Nat
  | [] => 0
  | (_, ps) :: path => ps.length + 1 + stepsOf path

/-- Goes on from a path, the cell entered last first, each cell with the precedents that are still to be
tried. `unmet` holds the cells with precedents that have not been entered. -/
def loopOn (g : Graph) : (unmet : List Ref) → (path : List (Ref × List Ref)) → Option (List Ref)
  | _, [] => none
  | unmet, (_, []) :: path => g.loopOn unmet path
  | unmet, (r, p :: ps) :: path =>
    if p ∈ r :: cellsOf path then some (p :: r :: cellsOf path).reverse
    else if p ∈ unmet then g.loopOn (unmet.erase p) ((p, (g.precedents p).toList) :: (r, ps) :: path)
    else g.loopOn unmet ((r, ps) :: path)
termination_by unmet path => (unmet.length, stepsOf path)
decreasing_by
  · exact Prod.Lex.right _ (by simp only [stepsOf]; omega)
  · rename_i h
    have := List.length_pos_of_mem h
    exact Prod.Lex.left _ _ (by rw [List.length_erase_of_mem h]; omega)
  · exact Prod.Lex.right _ (by simp only [stepsOf, List.length_cons]; omega)

/-- The path from a cell along precedents into a loop, with the cell that closes the loop at its end. -/
def loop? (g : Graph) (start : Ref) : Option (List Ref) :=
  g.loopOn (g.formulaCells.erase start) [(start, (g.precedents start).toList)]

end Graph

end Spreadsheet
