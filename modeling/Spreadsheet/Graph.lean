import Spreadsheet.Ref

/-!
# Dependency graphs

The graph of a sheet says which cells the formulas mention. A formula cell depends on the cells that its
formula mentions, its precedents; they have it as a dependent. The graph keeps both directions, and a
cell without precedents, or without dependents, has no entry.
-/

namespace Spreadsheet

structure Graph where
  /-- The formula cells that mention a cell. -/
  dependentMap : RefMap RefSet
  /-- The cells that the formula of a cell mentions. -/
  precedentMap : RefMap RefSet

namespace Graph

def empty : Graph := ⟨∅, ∅⟩

def dependents (g : Graph) (r : Ref) : RefSet := g.dependentMap[r]?.getD ∅

def precedents (g : Graph) (r : Ref) : RefSet := g.precedentMap[r]?.getD ∅

def isMentioned (g : Graph) (r : Ref) : Bool := r ∈ g.dependentMap

/-- The number of cells that some formula mentions. -/
def mentionedCount (g : Graph) : Nat := g.dependentMap.size

/-- The number of cells whose formula mentions a cell. -/
def formulaCount (g : Graph) : Nat := g.precedentMap.size

/-- The cells whose formula mentions a cell, in order. -/
def formulaCells (g : Graph) : List Ref := g.precedentMap.keys

/-- Adds a member to the set of a key. -/
def attach (m : RefMap RefSet) (key member : Ref) : RefMap RefSet :=
  m.alter key fun s => some ((s.getD ∅).insert member)

/-- Takes a member from the set of a key, and the entry with its last member. -/
def detach (m : RefMap RefSet) (key member : Ref) : RefMap RefSet :=
  m.alter key fun s => (s.map (·.erase member)).filter (!·.isEmpty)

/-- Gives a cell new precedents in place of the old ones. -/
def setPrecedents (g : Graph) (cell : Ref) (refs : List Ref) : Graph :=
  let new : RefSet := .ofList refs
  let detached := (g.precedents cell).toList.foldl (detach · · cell) g.dependentMap
  { dependentMap := new.toList.foldl (attach · · cell) detached
    precedentMap := if new.isEmpty then g.precedentMap.erase cell else g.precedentMap.insert cell new }

/-- Takes all precedents from a cell. -/
def clear (g : Graph) (cell : Ref) : Graph := g.setPrecedents cell []

end Graph

end Spreadsheet
