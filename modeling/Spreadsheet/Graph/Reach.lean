import Spreadsheet.Graph

/-!
# What a change reaches

A change of a cell reaches its dependents, their dependents, and so on. The walk keeps the cells that it
has not met yet; each step moves some of them to the cells whose dependents are still to be looked at, or
finishes with one of those, so it ends on every graph.
-/

namespace Spreadsheet

namespace Graph

/-- The dependents of a cell among some cells. -/
def dependentsIn (g : Graph) (r : Ref) (cells : List Ref) : List Ref := cells.filter (· ∈ g.dependents r)

/-- The other cells. -/
def othersIn (g : Graph) (r : Ref) (cells : List Ref) : List Ref := cells.filter (· ∉ g.dependents r)

theorem length_dependentsIn_add_length_othersIn (g : Graph) (r : Ref) (cells : List Ref) :
    (g.dependentsIn r cells).length + (g.othersIn r cells).length = cells.length := by
  unfold dependentsIn othersIn
  induction cells with
  | nil => rfl
  | cons a cells ih => by_cases h : a ∈ g.dependents r <;> simp_all <;> omega

/-- The unmet cells that can be reached from the ones to do, in the order in which they are met. The cell
met last is looked at first. -/
def discover (g : Graph) : (todo unmet : List Ref) → List Ref
  | [], _ => []
  | r :: todo, unmet =>
    let met := g.dependentsIn r unmet
    met ++ g.discover (met.reverse ++ todo) (g.othersIn r unmet)
termination_by todo unmet => todo.length + unmet.length
decreasing_by
  have := g.length_dependentsIn_add_length_othersIn r unmet
  simp only [List.length_append, List.length_reverse, List.length_cons]
  omega

/-- The cells that a change of `start` reaches, `start` itself only if it lies on a cycle. -/
def affected (g : Graph) (start : Ref) : RefSet := .ofList (g.discover [start] g.formulaCells)

/-- Whether a cell reaches itself by way of `within`. -/
def onCycleIn (g : Graph) (within : RefSet) (r : Ref) : Bool := r ∈ g.discover [r] within.toList

end Graph

end Spreadsheet
