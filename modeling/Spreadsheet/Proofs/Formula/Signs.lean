import Spreadsheet.Proofs.Formula.Program
import Spreadsheet.Proofs.Number.Sign

/-!
# Evaluation and the sign of zero

Look-ups whose values differ in signs of zeros only give the same value up to the sign of a zero, errors and
their causes included (`unsigned_value`). The invariant of a run is that the stacks agree up to signs of zeros
(`unsigned_exec`); each operator keeps it, division because it refuses zeros of either sign.
-/

namespace Spreadsheet
open Number (unsigned)

theorem Except.of_map_eq_map {ε α β : Type} {f : α → β} {x y : Except ε α} (h : f <$> x = f <$> y) :
    (∃ e, x = .error e ∧ y = .error e) ∨ ∃ a b, x = .ok a ∧ y = .ok b ∧ f a = f b := by
  cases x <;> cases y <;> simp_all

/-- The value, a number zero without its sign. -/
def Value.unsigned : Value → Value
  | .number x => .number (Number.unsigned x)
  | v => v

theorem Value.number?_unsigned (v : Value) :
    v.unsigned.number?.map Number.unsigned = v.number?.map Number.unsigned := by
  cases v with
  | number x => exact congrArg some (Number.unsigned_unsigned x)
  | text | error => rfl

theorem Operator.unsigned_apply (op : Operator) (x y : Float) :
    unsigned <$> op.apply (unsigned x) (unsigned y) = unsigned <$> op.apply x y := by
  cases op with
  | add => exact congrArg Except.ok (Number.unsigned_add x y)
  | sub => exact congrArg Except.ok (Number.unsigned_sub x y)
  | mul => exact congrArg Except.ok (Number.unsigned_mul x y)
  | div =>
    rw [apply, apply, Number.unsigned_beq_zero]
    split
    · rfl
    · next hy =>
      rw [show unsigned y = y from if_neg hy]
      exact congrArg Except.ok (Number.unsigned_div x y)

/-- The values of a look-up, zeros without their signs. -/
def Lookup.unsigned (values : Lookup) : Lookup := fun r => (values r).map Value.unsigned

theorem Lookup.unsigned_operand (values : Lookup) (r : Ref) :
    Number.unsigned <$> values.unsigned.operand r = Number.unsigned <$> values.operand r := by
  unfold operand unsigned
  cases values r with
  | none => rfl
  | some v =>
    have hnumber := v.number?_unsigned
    rw [Option.map_some]
    cases hv : v.number? <;> cases hv' : v.unsigned.number? <;> simp_all

theorem Lookup.unsigned_unsigned (values : Lookup) : values.unsigned.unsigned = values.unsigned := by
  funext r
  unfold unsigned
  cases values r with
  | none => rfl
  | some v =>
    cases v with
    | number x => exact congrArg (some <| Value.number ·) (Number.unsigned_unsigned x)
    | text | error => rfl

theorem Token.invalid?_unsigned (values : Lookup) : invalid? values.unsigned = invalid? values := by
  funext t
  cases t with
  | ref r => simp only [invalid?, Lookup.unsigned, Option.isNone_map]
  | _ => rfl

namespace Postfix
variable {stack stack' : List Float}

theorem map_unsigned_map (stack : List Float) : (stack.map unsigned).map unsigned = stack.map unsigned := by
  simp [Number.unsigned_unsigned]

theorem unsigned_push {x x' : Except Formula.Error Float} (hx : unsigned <$> x = unsigned <$> x')
    (hstack : stack.map unsigned = stack'.map unsigned) :
    List.map unsigned <$> (· :: stack) <$> x = List.map unsigned <$> (· :: stack') <$> x' := by
  cases x <;> cases x' <;> simp_all

theorem unsigned_step (values : Lookup) (stack : List Float) (i : Item) :
    List.map unsigned <$> step values.unsigned (stack.map unsigned) i =
      List.map unsigned <$> step values stack i := by
  cases i with
  | number x => exact congrArg (Except.ok <| unsigned x :: ·) (map_unsigned_map stack)
  | ref r => exact unsigned_push (values.unsigned_operand r) (map_unsigned_map stack)
  | negate =>
    rcases stack with _ | ⟨x, stack⟩
    · rfl
    · show Except.ok (unsigned (-unsigned x) :: (stack.map unsigned).map unsigned) =
        Except.ok (unsigned (-x) :: stack.map unsigned)
      rw [Number.unsigned_neg, map_unsigned_map]
  | binary op =>
    rcases stack with _ | ⟨y, _ | ⟨x, stack⟩⟩
    · rfl
    · rfl
    · exact unsigned_push (op.unsigned_apply x y) (map_unsigned_map stack)

theorem unsigned_exec (values : Lookup) (hstack : stack.map unsigned = stack'.map unsigned) (is : List Item) :
    List.map unsigned <$> exec values.unsigned stack is = List.map unsigned <$> exec values stack' is := by
  induction is generalizing stack stack' with
  | nil => exact congrArg Except.ok hstack
  | cons i is ih =>
    -- the left look-up has no signs to lose, so both steps are the step on what is without signs
    have hstep :
        List.map unsigned <$> step values.unsigned stack i = List.map unsigned <$> step values stack' i := by
      rw [← unsigned_step, Lookup.unsigned_unsigned, hstack, unsigned_step]
    simp only [exec]
    rcases Except.of_map_eq_map hstep with ⟨e, hleft, hright⟩ | ⟨next, next', hleft, hright, hnext⟩
    · rw [hleft, hright]
    · rw [hleft, hright]
      exact ih hnext

theorem unsigned_result (stack : List Float) :
    unsigned <$> result (stack.map unsigned) = unsigned <$> result stack := by
  rcases stack with _ | ⟨x, _ | ⟨y, stack⟩⟩
  · rfl
  · show unsigned <$> (if (unsigned x).isFinite then Except.ok (unsigned x) else _) =
      unsigned <$> (if x.isFinite then Except.ok x else _)
    rw [Number.isFinite_unsigned]
    split
    · exact congrArg Except.ok (Number.unsigned_unsigned x)
    · rfl
  · rfl

theorem unsigned_eval (values : Lookup) (is : List Item) :
    unsigned <$> eval values.unsigned is = unsigned <$> eval values is := by
  unfold eval
  rcases Except.of_map_eq_map (unsigned_exec values rfl is) with
    ⟨e, hleft, hright⟩ | ⟨out, out', hleft, hright, hout⟩
  · rw [hleft, hright]
  · rw [hleft, hright]
    show unsigned <$> result out = unsigned <$> result out'
    rw [← unsigned_result, hout, unsigned_result]

end Postfix

namespace Formula

theorem unsigned_evaluate (values : Lookup) (text : String) :
    unsigned <$> evaluate values.unsigned text = unsigned <$> evaluate values text := by
  unfold evaluate
  cases expression? text with
  | none => rfl
  | some expr =>
    simp only [Token.invalid?_unsigned]
    cases (Token.scan expr).findSome? (Token.invalid? values) with
    | some e => rfl
    | none =>
      cases Postfix.ofTokens (Token.scan expr) with
      | error e => rfl
      | ok is => exact Postfix.unsigned_eval values is

theorem unsigned_value (values : Lookup) (text : String) :
    (value values.unsigned text).unsigned = (value values text).unsigned := by
  unfold value
  rcases Except.of_map_eq_map (unsigned_evaluate values text) with
    ⟨e, hleft, hright⟩ | ⟨x, y, hleft, hright, hxy⟩
  · rw [hleft, hright]
  · rw [hleft, hright]
    exact congrArg Value.number hxy

end Formula

end Spreadsheet
