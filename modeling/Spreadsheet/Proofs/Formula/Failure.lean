import Spreadsheet.Formula.Evaluation

/-!
# How evaluation fails

The check of the tokens complains about a token that is unknown or names no cell (`Token.invalid?_eq_some_iff`).
A step fails only if it finds too few values on the stack, or on its own because its cell does not exist or
holds no number or because it divides by zero (`step_eq_error_iff`). A run fails with its first step that does
(`exec_eq_error_iff`). What it leaves otherwise is refused for being none or several numbers or an infinite one
(`result_eq_error_iff`).
-/

namespace Spreadsheet

theorem Except.map_eq_ok {ε α β : Type} {f : α → β} {x : Except ε α} {b : β} :
    f <$> x = .ok b ↔ ∃ a, x = .ok a ∧ f a = b := by
  cases x <;> simp [Functor.map, Except.map]

theorem Except.map_eq_error {ε α β : Type} {f : α → β} {x : Except ε α} {e : ε} :
    f <$> x = .error e ↔ x = .error e := by
  cases x <;> simp [Functor.map, Except.map]

/-- A place in a list is its front or a place behind it. -/
theorem exists_split_cons {α : Type} {P : List α → α → Prop} {a : α} {l : List α} :
    (∃ before x behind, a :: l = before ++ x :: behind ∧ P before x) ↔
      P [] a ∨ ∃ before x behind, l = before ++ x :: behind ∧ P (a :: before) x := by
  constructor
  · rintro ⟨before, x, behind, hsplit, h⟩
    cases before with
    | nil =>
      obtain ⟨rfl, rfl⟩ := List.cons.inj hsplit
      exact .inl h
    | cons b before =>
      obtain ⟨rfl, rfl⟩ := List.cons.inj hsplit
      exact .inr ⟨before, x, behind, rfl, h⟩
  · rintro (h | ⟨before, x, behind, rfl, h⟩)
    · exact ⟨[], a, l, rfl, h⟩
    · exact ⟨a :: before, x, behind, rfl, h⟩

/-- Steps one after the other fail with the first one that does. -/
theorem foldlM_eq_error_iff {ε σ α : Type} {f : σ → α → Except ε σ} {s : σ} {l : List α} {e : ε} :
    l.foldlM f s = .error e ↔
      ∃ before x behind, l = before ++ x :: behind ∧
        ∃ mid, before.foldlM f s = .ok mid ∧ f mid x = .error e := by
  induction l generalizing s with
  | nil => simp [pure, Except.pure]
  | cons a l ih =>
    rw [exists_split_cons, List.foldlM_cons]
    cases hstep : f s a with
    | error e' => simp [hstep, bind, Except.bind, pure, Except.pure]
    | ok s' => simp [hstep, ih, bind, Except.bind, pure, Except.pure]

namespace Token

/-- A token that no formula can use, and its text: it is unknown, or names a cell that does not exist. -/
inductive Unusable (values : Lookup) : Token → String → Prop
  | unknown {text} : Unusable values (.unknown text) text
  | absent {r} : values r = none → Unusable values (.ref r) r.name

theorem invalid?_eq_some_iff {values : Lookup} {t : Token} {e : Formula.Error} :
    invalid? values t = some e ↔ ∃ text, Unusable values t text ∧ e = .invalidToken text := by
  constructor
  · intro h
    cases t with
    | unknown text => exact ⟨text, .unknown, (Option.some.inj h).symm⟩
    | ref r =>
      rw [invalid?] at h
      split at h
      · next hr => exact ⟨r.name, .absent (Option.isNone_iff_eq_none.1 hr), (Option.some.inj h).symm⟩
      · cases h
    | _ => cases h
  · rintro ⟨text, hunusable, rfl⟩
    cases hunusable with
    | unknown => rfl
    | absent hr => simp [invalid?, hr]

end Token

/-- The number of values that an item takes from the stack. -/
def Item.arity : Item → Nat
  | .number _ | .ref _ => 0
  | .negate => 1
  | .binary _ => 2

namespace Postfix

/-- The item fails on its own: its cell does not exist or holds no number, or it divides by zero. -/
inductive FailsAlone (values : Lookup) : List Float → Item → Formula.Error → Prop
  | absent {stack r} : values r = none → FailsAlone values stack (.ref r) (.invalidToken r.name)
  | notNumber {stack r v} : values r = some v → v.number? = none →
      FailsAlone values stack (.ref r) (.invalidOperand r)
  | zeroDivisor {y x stack} : y == 0 → FailsAlone values (y :: x :: stack) (.binary .div) .divisionByZero

variable {values : Lookup} {stack out : List Float} {is : List Item} {i : Item} {e : Formula.Error}

/-! ### One step -/

theorem FailsAlone.arity_le (h : FailsAlone values stack i e) : i.arity ≤ stack.length := by
  cases h <;> simp [Item.arity]

theorem operand_eq_error_iff {r : Ref} : values.operand r = .error e ↔ FailsAlone values stack (.ref r) e := by
  constructor
  · intro h
    simp only [Lookup.operand] at h
    split at h
    · next hr => exact Except.error.inj h ▸ .absent hr
    · next v hr =>
      split at h
      · next hv => exact Except.error.inj h ▸ .notNumber hr hv
      · cases h
  · intro h
    cases h with
    | absent hr => simp only [Lookup.operand, hr]
    | notNumber hr hv => simp only [Lookup.operand, hr, hv]

theorem apply_eq_error_iff {op : Operator} {x y : Float} :
    op.apply x y = .error e ↔ FailsAlone values (y :: x :: stack) (.binary op) e := by
  constructor
  · intro h
    cases op with
    | div =>
      simp only [Operator.apply] at h
      split at h
      · next hy => exact Except.error.inj h ▸ .zeroDivisor hy
      · cases h
    | _ => cases h
  · intro h
    cases h with
    | zeroDivisor hy => simp only [Operator.apply, hy, ↓reduceIte]

theorem step_of_length_lt (h : stack.length < i.arity) :
    step values stack i = .error (.invalidFormula .missingOperand) := by
  cases i with
  | number x | ref r => cases h
  | negate =>
    cases stack with
    | nil => rfl
    | cons x stack => simp [Item.arity] at h
  | binary op =>
    rcases stack with _ | ⟨y, _ | ⟨x, stack⟩⟩
    · rfl
    · rfl
    · simp only [Item.arity, List.length_cons] at h
      omega

theorem step_eq_error_iff_of_arity_le (h : i.arity ≤ stack.length) :
    step values stack i = .error e ↔ FailsAlone values stack i e := by
  cases i with
  | number x => exact ⟨nofun, nofun⟩
  | ref r => rw [step, Except.map_eq_error, operand_eq_error_iff]
  | negate =>
    cases stack with
    | nil => cases h
    | cons x stack => exact ⟨nofun, nofun⟩
  | binary op =>
    rcases stack with _ | ⟨y, _ | ⟨x, stack⟩⟩
    · simp [Item.arity] at h
    · simp [Item.arity] at h
    · rw [step, Except.map_eq_error, apply_eq_error_iff]

theorem step_eq_error_iff : step values stack i = .error e ↔
    FailsAlone values stack i e ∨ stack.length < i.arity ∧ e = .invalidFormula .missingOperand := by
  rcases Nat.lt_or_ge stack.length i.arity with hlt | hle
  · rw [step_of_length_lt hlt]
    constructor
    · rintro ⟨⟩
      exact .inr ⟨hlt, rfl⟩
    · rintro (h | ⟨-, rfl⟩)
      · exact absurd h.arity_le (Nat.not_le.2 hlt)
      · rfl
  · rw [step_eq_error_iff_of_arity_le hle]
    exact ⟨.inl, fun h => h.resolve_right fun hfew => Nat.not_lt.2 hle hfew.1⟩

/-! ### Whole runs -/

theorem exec_eq_foldlM : exec values stack is = is.foldlM (step values) stack := by
  induction is generalizing stack with
  | nil => rfl
  | cons i is ih =>
    rw [exec, List.foldlM_cons]
    cases step values stack i with
    | error e => rfl
    | ok out => exact ih

theorem exec_eq_error_iff : exec values stack is = .error e ↔
    ∃ before i behind, is = before ++ i :: behind ∧
      ∃ mid, exec values stack before = .ok mid ∧ step values mid i = .error e := by
  simp only [exec_eq_foldlM, foldlM_eq_error_iff]

theorem result_eq_error_iff : result stack = .error e ↔
    stack = [] ∧ e = .invalidFormula .emptyExpression ∨
      (∃ x, stack = [x] ∧ ¬ x.isFinite ∧ e = .invalidFormula .notFinite) ∨
      2 ≤ stack.length ∧ e = .invalidFormula .missingOperator := by
  rcases stack with _ | ⟨x, _ | ⟨y, stack⟩⟩
  · simp [result, @eq_comm _ e]
  · by_cases hx : x.isFinite <;> simp [result, hx, @eq_comm _ e]
  · simp [result, @eq_comm _ e]

theorem eval_eq_error_iff : eval values is = .error e ↔
    exec values [] is = .error e ∨ ∃ stack, exec values [] is = .ok stack ∧ result stack = .error e := by
  rw [eval]
  cases exec values [] is <;> simp

/-- The errors that are not about the form of a program come from the first item that fails on its own. -/
theorem eval_eq_error_iff_failsAlone (he : ∀ fault, e ≠ .invalidFormula fault) :
    eval values is = .error e ↔ ∃ before i behind, is = before ++ i :: behind ∧
      ∃ stack, exec values [] before = .ok stack ∧ FailsAlone values stack i e := by
  have hresult (stack : List Float) : ¬ result stack = .error e := by
    rw [result_eq_error_iff]
    rintro (⟨-, rfl⟩ | ⟨_, -, -, rfl⟩ | ⟨-, rfl⟩) <;> exact he _ rfl
  have hstep (stack : List Float) (i : Item) : step values stack i = .error e ↔ FailsAlone values stack i e := by
    rw [step_eq_error_iff, or_iff_left fun hfew => he _ hfew.2]
  rw [eval_eq_error_iff, or_iff_left fun ⟨stack, _, h⟩ => hresult stack h, exec_eq_error_iff]
  simp only [hstep]

end Postfix

end Spreadsheet
