/-!
# Column letters

Columns are written in letters as a number in base 26 without a zero digit: A to Z, then AA to ZZ, and
so on, so each column has exactly one spelling. Reading takes upper-case ASCII letters only, and the
numbers that a column may have end below `2 ^ 64 - 1`: the letters count columns from one, and that
count has to fit a 64-bit word.
-/

namespace Spreadsheet

/-- Coordinates are written and read as 64-bit words. -/
def wordLimit : Nat := 0x10000000000000000

namespace Column

/-- The letter of a digit below 26. -/
def letter (digit : Nat) : Char := Char.ofNat ('A'.toNat + digit)

/-- The letters of a column that is counted from zero. -/
def letters (col : Nat) : List Char :=
  if col < 26 then [letter col] else letters (col / 26 - 1) ++ [letter (col % 26)]
termination_by col

theorem letters_of_lt {col : Nat} (h : col < 26) : letters col = [letter col] := by
  rw [letters, if_pos h]

theorem letters_of_le {col : Nat} (h : 26 ≤ col) :
    letters col = letters (col / 26 - 1) ++ [letter (col % 26)] := by
  rw [letters, if_neg (by omega)]

/-- The place of a column, counted from one, that a string of letters stands for. -/
def count (cs : List Char) : Nat :=
  cs.foldl (fun n c => 26 * n + (c.toNat - 'A'.toNat + 1)) 0

/-- The column of some letters, if they are upper-case letters and count within a word. -/
def ofLetters? (cs : List Char) : Option Nat :=
  if cs ≠ [] ∧ cs.all Char.isUpper ∧ count cs < wordLimit then some (count cs - 1) else none

end Column

end Spreadsheet
