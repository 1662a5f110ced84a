import Std.Data.ExtTreeMap
import Std.Data.ExtTreeSet

/-!
# Cell references

A reference is the place of a cell, counted from zero. References are ordered by row first, so a
sorted list of references reads a sheet line by line: A1, B1, Z1, AA1, A2. Finite sets and maps of
references are the extensional ones of the standard library: two of them are equal when they hold the
same things, however they were built.
-/

namespace Spreadsheet

structure Ref where
  row : Nat
  col : Nat
deriving DecidableEq, Repr, Inhabited

namespace Ref

instance : Ord Ref := ⟨compareLex (compareOn Ref.row) (compareOn Ref.col)⟩

instance : Std.TransOrd Ref :=
  inferInstanceAs (Std.TransCmp (compareLex (compareOn Ref.row) (compareOn Ref.col)))

instance : Std.LawfulEqOrd Ref where
  eq_of_compare {a b} h := by
    have h' : (compare a.row b.row).then (compare a.col b.col) = .eq := h
    rw [Ordering.then_eq_eq] at h'
    cases a; cases b
    simp_all

instance : LT Ref := ⟨fun a b => compare a b = .lt⟩

instance (a b : Ref) : Decidable (a < b) := inferInstanceAs (Decidable (compare a b = .lt))

theorem lt_iff {a b : Ref} : a < b ↔ a.row < b.row ∨ a.row = b.row ∧ a.col < b.col := by
  show (compare a.row b.row).then (compare a.col b.col) = .lt ↔ _
  rw [Ordering.then_eq_lt]
  simp [Nat.compare_eq_lt]

end Ref

/-- A finite set of references. -/
abbrev RefSet := Std.ExtTreeSet Ref

/-- A finite map from references. -/
abbrev RefMap (α : Type) := Std.ExtTreeMap Ref α

end Spreadsheet
