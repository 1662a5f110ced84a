import Spreadsheet.Formula.Evaluation

/-!
# Expression trees

`Expr` is what a formula means before it is cut into tokens or arranged as a program. `compute` reads a
tree directly: the left operand before the right one, up to the first error. `postorder` lists its items
as a program, and `exec_postorder` shows that running this program in front of another one leaves exactly
the computed number on the stack, or stops with the error of `compute`.
-/

namespace Spreadsheet

inductive Expr where
  | number (x : Float)
  | ref (r : Ref)
  | negate (e : Expr)
  | binary (op : Operator) (left right : Expr)
deriving DecidableEq

namespace Expr
variable {values : Lookup}

/-- The items of a tree, each after its operands. -/
def postorder : Expr → List Item
  | .number x => [.number x]
  | .ref r => [.ref r]
  | .negate e => e.postorder ++ [.negate]
  | .binary op left right => left.postorder ++ right.postorder ++ [.binary op]

/-- The number that a tree stands for, or the first error on the way to it. -/
def compute (values : Lookup) : Expr → Except Formula.Error Float
  | .number x => .ok x
  | .ref r =>
    match values r with
    | none => .error (.invalidToken r.name)
    | some v =>
      match v.number? with
      | none => .error (.invalidOperand r)
      | some x => .ok x
  | .negate e => do
    let x ← e.compute values
    .ok (-x)
  | .binary op left right => do
    let x ← left.compute values
    let y ← right.compute values
    match op with
    | .add => .ok (x + y)
    | .sub => .ok (x - y)
    | .mul => .ok (x * y)
    | .div => if y == 0 then .error .divisionByZero else .ok (x / y)

/-- The number of a whole formula, which has to be finite. -/
def evaluate (values : Lookup) (e : Expr) : Except Formula.Error Float := do
  let x ← e.compute values
  if x.isFinite then .ok x else .error (.invalidFormula .notFinite)

theorem evaluate_eq_ok_iff {e : Expr} {x : Float} :
    e.evaluate values = .ok x ↔ e.compute values = .ok x ∧ x.isFinite := by
  rw [evaluate]
  cases e.compute values with
  | error err => exact ⟨nofun, nofun⟩
  | ok y =>
    show (if y.isFinite then Except.ok y else _) = .ok x ↔ Except.ok y = .ok x ∧ x.isFinite
    grind

theorem compute_ref (r : Ref) : (Expr.ref r).compute values = values.operand r := rfl

theorem compute_binary (op : Operator) (left right : Expr) :
    (Expr.binary op left right).compute values =
      (do let x ← left.compute values; let y ← right.compute values; op.apply x y) := by
  cases op <;> rfl

end Expr

namespace Postfix
variable {values : Lookup} {stack : List Float}

theorem exec_number (x : Float) (is : List Item) :
    exec values stack (.number x :: is) = exec values (x :: stack) is := rfl

theorem exec_ref (r : Ref) (is : List Item) :
    exec values stack (.ref r :: is) = (do let x ← values.operand r; exec values (x :: stack) is) := by
  simp only [exec, step]
  cases values.operand r <;> rfl

theorem exec_negate (x : Float) (is : List Item) :
    exec values (x :: stack) (.negate :: is) = exec values (-x :: stack) is := rfl

theorem exec_binary (op : Operator) (x y : Float) (is : List Item) :
    exec values (y :: x :: stack) (.binary op :: is) =
      (do let z ← op.apply x y; exec values (z :: stack) is) := by
  simp only [exec, step]
  cases op.apply x y <;> rfl

/-- Running the program of a tree in front of other items. -/
theorem exec_postorder (e : Expr) (stack : List Float) (is : List Item) :
    exec values stack (e.postorder ++ is) =
      (do let x ← e.compute values; exec values (x :: stack) is) := by
  induction e generalizing stack is with
  | number x => exact exec_number x is
  | ref r => rw [Expr.compute_ref]; exact exec_ref r is
  | negate e ih =>
    rw [Expr.postorder, List.append_assoc, ih, Expr.compute, bind_assoc]
    rfl
  | binary op left right ihl ihr =>
    rw [Expr.postorder, List.append_assoc, List.append_assoc, ihl, Expr.compute_binary, bind_assoc]
    congr 1; funext x
    rw [ihr, bind_assoc]
    congr 1; funext y
    exact exec_binary op x y is

theorem eval_postorder (e : Expr) : eval values e.postorder = e.evaluate values := by
  have h : exec values [] (e.postorder ++ []) = _ := exec_postorder e [] []
  rw [List.append_nil] at h
  rw [eval, h, Expr.evaluate]
  cases e.compute values <;> rfl

end Postfix

end Spreadsheet
