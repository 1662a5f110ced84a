import Spreadsheet.Formula.Evaluation

/-!
# Stores

A store holds the cells that exist. There is no deletion: a cleared cell holds an empty text.
-/

namespace Spreadsheet

abbrev Store := RefMap Cell

namespace Store

/-- The values that formulas read. -/
def values (s : Store) : Lookup := fun r => s[r]?.map Cell.value

/-- Puts a cell, in place of the one that was there. -/
def put (s : Store) (r : Ref) (value : Value) (formula : Option String) : Store :=
  s.insert r ⟨value, formula⟩

/-- Replaces the value of an existing cell and keeps its formula. -/
def replaceValue? (s : Store) (r : Ref) (value : Value) : Option Store :=
  s[r]?.map fun c => s.insert r { c with value }

/-- Replaces the value of a cell if it exists. -/
def replaceValue (s : Store) (r : Ref) (value : Value) : Store := (s.replaceValue? r value).getD s

/-- Creates a literal cell where there is none. -/
def init? (s : Store) (r : Ref) (literal : String) : Option Store :=
  if r ∈ s then none else some (s.insert r (.ofLiteral literal))

/-- Computes the formula of a cell anew, if it has one, and keeps the outcome as its value. -/
def recompute? (s : Store) (r : Ref) : Option Store := do
  let formula ← (← s[r]?).formula
  s.replaceValue? r (Formula.value s.values formula)

/-- Computes formula cells one after the other. Counts them. -/
def recomputeAll (s : Store) : List Ref → Nat × Store
  | [] => (0, s)
  | r :: rs =>
    match s.recompute? r with
    | some s =>
      let (n, s) := s.recomputeAll rs
      (n + 1, s)
    | none => s.recomputeAll rs

/-- The cells with a formula, in order. -/
def formulaCells (s : Store) : List Ref := s.keys.filter fun r => s[r]?.any Cell.hasFormula

end Store

end Spreadsheet
