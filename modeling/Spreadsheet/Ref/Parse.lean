import Spreadsheet.Formula.Error

/-!
# Reading references

A text that is not the name of a cell is refused, and the text itself is the cause.
-/

namespace Spreadsheet

/-- The column, counted from zero, and the row, counted from one, of a name. -/
def A1.decode (text : String) : Except Formula.Error (Nat × Nat) :=
  match A1.ofChars? text.toList with
  | some place => .ok place
  | none => .error (.invalidReference text)

/-- The cell of a name. -/
def Ref.parse (text : String) : Except Formula.Error Ref :=
  match Ref.ofName? text with
  | some r => .ok r
  | none => .error (.invalidReference text)

end Spreadsheet
