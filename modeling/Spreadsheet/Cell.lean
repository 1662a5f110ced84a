import Spreadsheet.Formula.Error
import Spreadsheet.Number

/-!
# Cells

A cell holds a value and, if the value was computed, the formula that it came from. A literal becomes a
number only if the number's text is exactly what was typed, so that `1.50` and `007` read back unchanged.
-/

namespace Spreadsheet

inductive Value where
  | number (x : Float)
  | text (s : String)
  | error (e : ErrorKind)
deriving DecidableEq

namespace Value

/-- The value of a literal as it was typed. -/
def ofLiteral (input : String) : Value :=
  match Number.ofLiteral? input with
  | some x => if Number.text x = input then .number x else .text input
  | none => .text input

/-- The number that the value is as an operand. -/
def number? : Value → Option Float
  | .number x => some x
  | .text s => Number.ofLiteral? s
  | .error _ => none

def isError : Value → Bool
  | .error _ => true
  | _ => false

/-- The text shown for the value. -/
def display : Value → String
  | .number x => Number.text x
  | .text s => s
  | .error e => e.display

end Value

structure Cell where
  value : Value
  /-- The text of the formula, with its `=`. -/
  formula : Option String
deriving DecidableEq

namespace Cell

def ofLiteral (input : String) : Cell := ⟨.ofLiteral input, none⟩

def hasFormula (c : Cell) : Bool := c.formula.isSome

def display (c : Cell) : String := c.value.display

/-- The text to edit: the formula if there is one, else the value. -/
def input (c : Cell) : String := c.formula.getD c.display

/-- Whether the cell shows something or computes something. -/
def isFilled (c : Cell) : Bool := c.hasFormula || c.display != ""

end Cell

end Spreadsheet
