import Spreadsheet.Ref
import Spreadsheet.Column

/-!
# A1 notation

A cell is written as its column letters and its row, counted from one, in decimal: `B3`. The row has no
leading zero and fits a 64-bit word, so each name is the only spelling of its cell.
-/

namespace Spreadsheet

namespace A1

/-- The characters of a column, counted from zero, and a row, counted from one. -/
def chars (col row : Nat) : List Char := Column.letters col ++ Nat.toDigits 10 row

/-- The text of a column, counted from zero, and a row, counted from one. -/
def encode (col row : Nat) : String := String.ofList (chars col row)

/-- A row number: decimal digits that do not start with a zero and fit a word. -/
def rowOfDigits? (cs : List Char) : Option Nat :=
  if cs ≠ [] ∧ cs.all Char.isDigit ∧ cs.head? ≠ some '0' ∧ Nat.ofDigitChars 10 cs 0 < wordLimit then
    some (Nat.ofDigitChars 10 cs 0)
  else none

/-- The column, counted from zero, and the row, counted from one, of a name. -/
def ofChars? (cs : List Char) : Option (Nat × Nat) := do
  let col ← Column.ofLetters? (cs.takeWhile Char.isUpper)
  let row ← rowOfDigits? (cs.dropWhile Char.isUpper)
  return (col, row)

end A1

namespace Ref

/-- The name of a cell, such as `B3`. -/
def name (r : Ref) : String := A1.encode r.col (r.row + 1)

/-- The cell of a name. -/
def ofChars? (cs : List Char) : Option Ref := (A1.ofChars? cs).map fun (col, row) => ⟨row - 1, col⟩

/-- The cell of a name. -/
def ofName? (text : String) : Option Ref := ofChars? text.toList

end Ref

end Spreadsheet
