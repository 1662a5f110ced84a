import Spreadsheet.Ref.A1
import Spreadsheet.Text.Quoted

/-!
# Errors of formulas

A failed evaluation has a cause, `Formula.Error`, with a message of its own. A cell keeps only the kind of
it, `ErrorKind`, and shows that kind as a reserved text.
-/

namespace Spreadsheet

/-- What a cell keeps of a failed evaluation. -/
inductive ErrorKind where
  | invalidToken
  | invalidOperand
  | invalidFormula
  | divisionByZero
  | cyclicDependency
deriving DecidableEq, Repr

namespace ErrorKind

/-- The text shown for the error. -/
def display : ErrorKind → String
  | .invalidToken | .invalidOperand | .invalidFormula => "invalid"
  | .divisionByZero => "#DIV/0!"
  | .cyclicDependency => "#CYCLE!"

end ErrorKind

/-- What is wrong with the form or the result of a formula. -/
inductive Formula.Fault where
  /-- The text does not start with `=`. -/
  | missingEquals (text : String)
  | unmatchedClosing
  | unmatchedOpening
  | missingOperand
  | missingOperator
  | emptyExpression
  /-- The result is infinite or not a number. -/
  | notFinite
deriving DecidableEq, Repr

namespace Formula.Fault

def message : Fault → String
  | .missingEquals text => "missing '=' in " ++ Text.quoted text
  | .unmatchedClosing => "unmatched ')'"
  | .unmatchedOpening => "unmatched '('"
  | .missingOperand => "missing operand"
  | .missingOperator => "missing operator"
  | .emptyExpression => "empty expression"
  | .notFinite => "result is not a finite number"

end Formula.Fault

inductive Formula.Error where
  /-- The text is not the name of a cell. -/
  | invalidReference (text : String)
  /-- The token is not part of the formula language, or it names a cell that does not exist. -/
  | invalidToken (text : String)
  /-- The cell holds no number. -/
  | invalidOperand (ref : Ref)
  | invalidFormula (fault : Formula.Fault)
  | divisionByZero
  | cyclicDependency
deriving DecidableEq, Repr

namespace Formula.Error

def message : Error → String
  | .invalidReference text => "Invalid cell reference: " ++ text
  | .invalidToken text => "Invalid token: " ++ text
  | .invalidOperand ref => "Cell " ++ ref.name ++ " does not hold a number"
  | .invalidFormula fault => "Invalid formula: " ++ fault.message
  | .divisionByZero => "Division by zero"
  | .cyclicDependency => "Circular dependency detected"

/-- What a cell keeps of the error. A malformed reference in a formula is just an unknown token. -/
def kind : Error → ErrorKind
  | .invalidReference _ | .invalidToken _ => .invalidToken
  | .invalidOperand _ => .invalidOperand
  | .invalidFormula _ => .invalidFormula
  | .divisionByZero => .divisionByZero
  | .cyclicDependency => .cyclicDependency

end Formula.Error

end Spreadsheet
