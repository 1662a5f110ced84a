import Spreadsheet.Formula.Error
import Spreadsheet.Formula.Token

/-!
# Postfix programs

An expression is rearranged so that each operator follows its operands. Operators wait on a stack until
an operator that binds no tighter, a closing parenthesis or the end lets them out. A minus sign where an
operand is due is a negation; it binds tighter than every binary operator and lets nothing out.

Only unknown tokens and unbalanced parentheses are refused here. Whether every operator finds its operands
shows when the program runs.
-/

namespace Spreadsheet

namespace Operator

/-- How tight the operator binds. -/
def precedence : Operator → Nat
  | .add | .sub => 1
  | .mul | .div => 2

end Operator

/-- One step of a postfix program. -/
inductive Item where
  | number (x : Float)
  | ref (r : Ref)
  | binary (op : Operator)
  | negate
deriving DecidableEq

/-- What waits for its operands to be complete. -/
inductive Pending where
  | binary (op : Operator)
  | negate
  | opening
deriving DecidableEq

namespace Pending

def precedence : Pending → Nat
  | .binary op => op.precedence
  | .negate => 3
  | .opening => 0

/-- The step that is let out; an opening parenthesis leaves none. -/
def item? : Pending → Option Item
  | .binary op => some (.binary op)
  | .negate => some .negate
  | .opening => none

end Pending

namespace Postfix

/-- The rest of a program. `due` says that an operand is due, and `waiting` is the stack, top first. -/
def arrange : (due : Bool) → (waiting : List Pending) → List Token → Except Formula.Error (List Item)
  | _, waiting, [] =>
    if Pending.opening ∈ waiting then .error (.invalidFormula .unmatchedOpening)
    else .ok (waiting.filterMap Pending.item?)
  | _, waiting, .number x :: ts => (.number x :: ·) <$> arrange false waiting ts
  | _, waiting, .ref r :: ts => (.ref r :: ·) <$> arrange false waiting ts
  | due, waiting, .operator op :: ts =>
    if due ∧ op = .sub then arrange true (.negate :: waiting) ts
    else
      let tighter (p : Pending) : Bool := op.precedence ≤ p.precedence
      ((waiting.takeWhile tighter).filterMap Pending.item? ++ ·) <$>
        arrange true (.binary op :: waiting.dropWhile tighter) ts
  | _, waiting, .opening :: ts => arrange true (.opening :: waiting) ts
  | _, waiting, .closing :: ts =>
    match waiting.dropWhile (· ≠ .opening) with
    | [] => .error (.invalidFormula .unmatchedClosing)
    | _ :: below =>
      ((waiting.takeWhile (· ≠ .opening)).filterMap Pending.item? ++ ·) <$> arrange false below ts
  | _, _, .unknown text :: _ => .error (.invalidToken text)

/-- The program of an expression. -/
def ofTokens (ts : List Token) : Except Formula.Error (List Item) := arrange true [] ts

end Postfix

end Spreadsheet
