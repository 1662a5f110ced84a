import Spreadsheet.Cell
import Spreadsheet.Formula.Postfix

/-!
# Evaluation of formulas

A postfix program runs on a stack of numbers. Cells are read through a look-up that gives the value of a
cell, or nothing where there is no cell. The first failure ends the run; at its end exactly one finite
number has to be left.
-/

namespace Spreadsheet

namespace Operator

/-- The operator on numbers. A divisor that equals zero, of either sign, is refused. -/
def apply : Operator → Float → Float → Except Formula.Error Float
  | .add, x, y => .ok (x + y)
  | .sub, x, y => .ok (x - y)
  | .mul, x, y => .ok (x * y)
  | .div, x, y => if y == 0 then .error .divisionByZero else .ok (x / y)

end Operator

/-- The value of each cell that exists. -/
abbrev Lookup := Ref → Option Value

namespace Lookup

/-- The number that a cell holds. -/
def operand (values : Lookup) (r : Ref) : Except Formula.Error Float :=
  match values r with
  | none => .error (.invalidToken r.name)
  | some v =>
    match v.number? with
    | none => .error (.invalidOperand r)
    | some x => .ok x

end Lookup

namespace Postfix

/-- The number that a run leaves. -/
def result : List Float → Except Formula.Error Float
  | [] => .error (.invalidFormula .emptyExpression)
  | [x] => if x.isFinite then .ok x else .error (.invalidFormula .notFinite)
  | _ => .error (.invalidFormula .missingOperator)

/-- One step on the stack, whose top comes first. -/
def step (values : Lookup) : List Float → Item → Except Formula.Error (List Float)
  | stack, .number x => .ok (x :: stack)
  | stack, .ref r => (· :: stack) <$> values.operand r
  | x :: stack, .negate => .ok (-x :: stack)
  | y :: x :: stack, .binary op => (· :: stack) <$> op.apply x y
  | _, _ => .error (.invalidFormula .missingOperand)

/-- Runs a program on a stack. -/
def exec (values : Lookup) : List Float → List Item → Except Formula.Error (List Float)
  | stack, [] => .ok stack
  | stack, i :: is =>
    match step values stack i with
    | .ok stack => exec values stack is
    | .error e => .error e

/-- The number that a program computes. -/
def eval (values : Lookup) (is : List Item) : Except Formula.Error Float :=
  match exec values [] is with
  | .ok stack => result stack
  | .error e => .error e

end Postfix

namespace Token

/-- The complaint about a token that no formula can use: it is unknown, or names no cell. -/
def invalid? (values : Lookup) : Token → Option Formula.Error
  | .unknown text => some (.invalidToken text)
  | .ref r => if (values r).isNone then some (.invalidToken r.name) else none
  | _ => none

end Token

namespace Formula

/-- The number that a formula computes. All its tokens are checked before anything else. -/
def evaluate (values : Lookup) (text : String) : Except Formula.Error Float :=
  match expression? text with
  | none => .error (.invalidFormula (.missingEquals text))
  | some expr =>
    let ts := Token.scan expr
    match ts.findSome? (Token.invalid? values) with
    | some e => .error e
    | none =>
      match Postfix.ofTokens ts with
      | .ok is => Postfix.eval values is
      | .error e => .error e

/-- The outcome of a formula as the value of a cell. -/
def value (values : Lookup) (text : String) : Value :=
  match evaluate values text with
  | .ok x => .number x
  | .error e => .error e.kind

end Formula

end Spreadsheet
