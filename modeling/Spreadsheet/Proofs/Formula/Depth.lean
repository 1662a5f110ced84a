import Spreadsheet.Proofs.Formula.Program

/-!
# How many values a program leaves

Each item takes as many values from the stack as it has operands and puts one there, so the depth of the stack
is known before a program runs (`depth?_of_exec`). Where no item fails on its own, the depth alone decides how
a run ends (`Steady.eval_cases`). With the trees of the programs that evaluate, this settles what comes of any
list of items.
-/

namespace Spreadsheet

namespace Postfix
variable {values : Lookup} {stack out : List Float} {is : List Item} {i : Item} {n m : Nat} {e : Formula.Error}

/-- The number of values after a program that starts with `n` of them, nothing if some item finds too few. -/
def depth? : (n : Nat) → List Item → Option Nat
  | n, [] => some n
  | n, i :: is => if i.arity ≤ n then depth? (n - i.arity + 1) is else none

theorem length_of_step (h : step values stack i = .ok out) :
    i.arity ≤ stack.length ∧ out.length = stack.length - i.arity + 1 := by
  unfold step at h
  split at h
  · obtain rfl := Except.ok.inj h
    exact ⟨Nat.zero_le _, rfl⟩
  · obtain ⟨x, -, rfl⟩ := Except.map_eq_ok.1 h
    exact ⟨Nat.zero_le _, rfl⟩
  · obtain rfl := Except.ok.inj h
    simp [Item.arity]
  · obtain ⟨z, -, rfl⟩ := Except.map_eq_ok.1 h
    simp [Item.arity]
  · cases h

theorem depth?_eq_none_iff : depth? n is = none ↔
    ∃ before i behind, is = before ++ i :: behind ∧ ∃ m, depth? n before = some m ∧ m < i.arity := by
  induction is generalizing n with
  | nil => simp [depth?]
  | cons i is ih =>
    rw [exists_split_cons]
    by_cases hi : i.arity ≤ n
    · simp [depth?, hi, ih, Nat.not_lt.2 hi]
    · simp [depth?, hi, Nat.lt_of_not_le hi]

theorem depth?_pos (h : depth? n is = some m) (hpos : 0 < n ∨ is ≠ []) : 0 < m := by
  induction is generalizing n with
  | nil =>
    obtain rfl := Option.some.inj h
    simpa using hpos
  | cons i is ih =>
    rw [depth?] at h
    split at h
    · exact ih h (.inl (Nat.succ_pos _))
    · cases h

theorem depth?_of_exec (h : exec values stack is = .ok out) : depth? stack.length is = some out.length := by
  induction is generalizing stack with
  | nil =>
    obtain rfl := Except.ok.inj h
    rfl
  | cons i is ih =>
    rw [exec] at h
    split at h
    · next mid hstep =>
      obtain ⟨harity, hlength⟩ := length_of_step hstep
      rw [depth?, if_pos harity, ← hlength, ih h]
    · cases h

/-- No item that a run from the empty stack reaches fails on its own. -/
def Steady (values : Lookup) (is : List Item) : Prop :=
  ∀ before i behind, is = before ++ i :: behind → ∀ stack, exec values [] before = .ok stack →
    ∀ e, ¬ FailsAlone values stack i e

/-- The only failure of a steady run are missing operands, and they show in the depth. -/
theorem Steady.exec_eq_error (h : Steady values is) (herror : exec values [] is = .error e) :
    e = .invalidFormula .missingOperand ∧ depth? 0 is = none := by
  obtain ⟨before, i, behind, his, stack, hbefore, hstep⟩ := exec_eq_error_iff.1 herror
  rcases step_eq_error_iff.1 hstep with halone | ⟨hlt, rfl⟩
  · exact absurd halone (h before i behind his stack hbefore e)
  · exact ⟨rfl, depth?_eq_none_iff.2 ⟨before, i, behind, his, _, depth?_of_exec hbefore, hlt⟩⟩

/-- The depth alone decides how a steady run ends. -/
theorem Steady.eval_cases (h : Steady values is) :
    depth? 0 is = none ∧ eval values is = .error (.invalidFormula .missingOperand) ∨
      ∃ stack, depth? 0 is = some stack.length ∧ eval values is = result stack := by
  rw [eval]
  cases hexec : exec values [] is with
  | error e =>
    obtain ⟨rfl, hdepth⟩ := h.exec_eq_error hexec
    exact .inl ⟨hdepth, rfl⟩
  | ok stack => exact .inr ⟨stack, depth?_of_exec hexec, rfl⟩

/-- The programs that evaluate are the postorders of the trees with a finite number, each of one tree. Where no
item fails on its own, the error of the others shows in the depth. -/
theorem eval_outcomes (values : Lookup) (is : List Item) :
    (∀ x, eval values is = .ok x ↔ ∃ e : Expr, e.postorder = is ∧
      (∀ e' : Expr, e'.postorder = is → e' = e) ∧ e.compute values = .ok x ∧ x.isFinite) ∧
    (Steady values is →
      (eval values is = .error (.invalidFormula .missingOperand) ↔
        ∃ before i behind, is = before ++ i :: behind ∧ ∃ n, depth? 0 before = some n ∧ n < i.arity) ∧
      (eval values is = .error (.invalidFormula .emptyExpression) ↔ is = []) ∧
      (eval values is = .error (.invalidFormula .missingOperator) ↔
        ∃ n, depth? 0 is = some n ∧ 2 ≤ n)) := by
  refine ⟨fun x => ?_, fun h => ?_⟩
  · rw [eval_eq_ok_iff]
    constructor
    · rintro ⟨e, rfl, he⟩
      obtain ⟨hcompute, hfinite⟩ := Expr.evaluate_eq_ok_iff.1 he
      exact ⟨e, rfl, fun e' he' => Expr.postorder_injective he', hcompute, hfinite⟩
    · rintro ⟨e, rfl, -, hcompute, hfinite⟩
      exact ⟨e, rfl, Expr.evaluate_eq_ok_iff.2 ⟨hcompute, hfinite⟩⟩
  · rw [← depth?_eq_none_iff]
    rcases h.eval_cases with ⟨hdepth, heval⟩ | ⟨stack, hdepth, heval⟩
    · have hne : is ≠ [] := by
        rintro rfl
        cases hdepth
      simp [hdepth, heval, hne]
    · have hnil : stack = [] ↔ is = [] := by
        constructor
        · rintro rfl
          cases is with
          | nil => rfl
          | cons i is => exact absurd (depth?_pos hdepth (.inr (List.cons_ne_nil i is))) (Nat.lt_irrefl 0)
        · rintro rfl
          exact List.length_eq_zero_iff.1 (Option.some.inj hdepth).symm
      simp [hdepth, heval, result_eq_error_iff, hnil]

example (values : Lookup) :
    eval values [.number 1, .number 2] = .error (.invalidFormula .missingOperator) := rfl

end Postfix

end Spreadsheet
