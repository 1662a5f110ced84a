import Spreadsheet.Proofs.Formula.Failure

/-!
# What evaluation reads

Recalculation of a part of a sheet is right only because a formula reads the cells that it mentions and no
others. `operands_of_arrange`: a program has the operands of its tokens, in their order. So two look-ups
that agree on the mentioned cells give the same answer, an error and its cause included (`evaluate_congr`).
No evaluation answers the error that marks cycles, so a value never looks like a mark
(`value_ne_cyclicDependency`).
-/

namespace Spreadsheet

/-- The item of a token that is an operand. -/
def Token.operand? : Token → Option Item
  | .number x => some (.number x)
  | .ref r => some (.ref r)
  | _ => none

def Item.isOperand : Item → Bool
  | .number _ | .ref _ => true
  | .binary _ | .negate => false

namespace Postfix
variable {values values' : Lookup} {due : Bool} {waiting : List Pending} {ts : List Token} {is : List Item}

theorem filter_isOperand_waiting (waiting : List Pending) :
    (waiting.filterMap Pending.item?).filter Item.isOperand = [] := by
  induction waiting with
  | nil => rfl
  | cons p waiting ih => cases p <;> simpa [Pending.item?, Item.isOperand] using ih

/-- Rearranging moves operators only. -/
theorem operands_of_arrange (h : arrange due waiting ts = .ok is) :
    is.filter Item.isOperand = ts.filterMap Token.operand? := by
  fun_induction arrange due waiting ts generalizing is with
  | case1 | case8 | case10 => cases h
  | case2 =>
    obtain rfl := Except.ok.inj h
    exact filter_isOperand_waiting _
  | case3 _ _ _ _ ih | case4 _ _ _ _ ih =>
    obtain ⟨is, his, rfl⟩ := Except.map_eq_ok.1 h
    exact congrArg (_ :: ·) (ih his)
  | case5 _ _ _ _ _ ih | case7 _ _ _ ih => exact ih h
  | case6 | case9 =>
    rename_i ih
    obtain ⟨is, his, rfl⟩ := Except.map_eq_ok.1 h
    rw [List.filter_append, filter_isOperand_waiting, List.nil_append, ih his]
    rfl

theorem ref_mem_of_arrange {r : Ref} (h : arrange due waiting ts = .ok is) : .ref r ∈ is ↔ .ref r ∈ ts := by
  have hmem : .ref r ∈ is.filter Item.isOperand ↔ .ref r ∈ is := by simp [Item.isOperand]
  rw [← hmem, operands_of_arrange h, List.mem_filterMap]
  constructor
  · rintro ⟨t, ht, heq⟩
    cases t <;> simp_all [Token.operand?]
  · exact fun ht => ⟨_, ht, rfl⟩

theorem step_congr {i : Item} (h : ∀ r, i = .ref r → values r = values' r) (stack : List Float) :
    step values stack i = step values' stack i := by
  cases i with
  | ref r => simp only [step, Lookup.operand, h r rfl]
  | number x => rfl
  | negate => cases stack <;> rfl
  | binary op => rcases stack with _ | ⟨y, _ | ⟨x, stack⟩⟩ <;> rfl

theorem exec_congr (h : ∀ r, .ref r ∈ is → values r = values' r) (stack : List Float) :
    exec values stack is = exec values' stack is := by
  induction is generalizing stack with
  | nil => rfl
  | cons i is ih =>
    have hstep := step_congr (i := i) (fun r hr => h r (hr ▸ List.mem_cons_self)) stack
    simp only [exec, hstep, ih fun r hr => h r (List.mem_cons_of_mem _ hr)]

theorem eval_congr (h : ∀ r, .ref r ∈ is → values r = values' r) : eval values is = eval values' is := by
  rw [eval, eval, exec_congr h]

end Postfix

namespace Token
variable {values values' : Lookup} {ts : List Token}

theorem findSome?_invalid?_congr (h : ∀ r, .ref r ∈ ts → values r = values' r) :
    ts.findSome? (invalid? values) = ts.findSome? (invalid? values') := by
  induction ts with
  | nil => rfl
  | cons t ts ih =>
    have ht : invalid? values t = invalid? values' t := by
      cases t with
      | ref r => simp only [invalid?, h r List.mem_cons_self]
      | _ => rfl
    rw [List.findSome?_cons, List.findSome?_cons, ht, ih fun r hr => h r (List.mem_cons_of_mem _ hr)]

end Token

namespace Formula
variable {values values' : Lookup} {text : String} {expr : List Char} {r : Ref}

theorem mem_references :
    r ∈ references text ↔ .ref r ∈ Token.scan ((expression? text).getD text.toList) := by
  rw [references, List.mem_filterMap]
  constructor
  · rintro ⟨t, ht, heq⟩
    cases t <;> simp_all [Token.ref?]
  · exact fun h => ⟨_, h, rfl⟩

/-- Two look-ups that agree on the mentioned cells, also on which of them exist, give the same answer. -/
theorem evaluate_congr (h : ∀ r ∈ references text, values r = values' r) :
    evaluate values text = evaluate values' text := by
  unfold evaluate
  cases hexpr : expression? text with
  | none => rfl
  | some expr =>
    have hread : ∀ r, .ref r ∈ Token.scan expr → values r = values' r := fun r hr =>
      h r (mem_references.2 (by rw [hexpr]; exact hr))
    simp only [Token.findSome?_invalid?_congr hread]
    cases hprog : Postfix.ofTokens (Token.scan expr) with
    | error e => rfl
    | ok is => simp only [Postfix.eval_congr fun r hr => hread r ((Postfix.ref_mem_of_arrange hprog).1 hr)]

theorem value_congr (h : ∀ r ∈ references text, values r = values' r) :
    value values text = value values' text := by
  rw [value, value, evaluate_congr h]

end Formula

/-! ### The errors of evaluation -/

/-- The error is one that evaluation can answer: names are not parsed there, and cycles not looked for. -/
def Formula.Error.OfEvaluation : Formula.Error → Prop
  | .invalidReference _ | .cyclicDependency => False
  | _ => True

namespace Postfix
variable {values : Lookup} {due : Bool} {waiting : List Pending} {ts : List Token} {is : List Item}
variable {e : Formula.Error}

theorem ofEvaluation_of_arrange (h : arrange due waiting ts = .error e) : e.OfEvaluation := by
  fun_induction arrange due waiting ts with
  | case2 => cases h
  | case1 | case8 | case10 =>
    obtain rfl := Except.error.inj h
    trivial
  | case3 _ _ _ _ ih | case4 _ _ _ _ ih => exact ih (Except.map_eq_error.1 h)
  | case5 _ _ _ _ _ ih | case7 _ _ _ ih => exact ih h
  | case6 | case9 =>
    rename_i ih
    exact ih (Except.map_eq_error.1 h)

theorem FailsAlone.ofEvaluation {stack : List Float} {i : Item} (h : FailsAlone values stack i e) :
    e.OfEvaluation := by
  cases h <;> trivial

theorem ofEvaluation_of_eval (h : eval values is = .error e) : e.OfEvaluation := by
  rcases eval_eq_error_iff.1 h with hexec | ⟨stack, -, hresult⟩
  · obtain ⟨_, _, _, _, _, _, hstep⟩ := exec_eq_error_iff.1 hexec
    rcases step_eq_error_iff.1 hstep with halone | ⟨-, rfl⟩
    · exact halone.ofEvaluation
    · trivial
  · rcases result_eq_error_iff.1 hresult with ⟨-, rfl⟩ | ⟨x, -, -, rfl⟩ | ⟨-, rfl⟩ <;> trivial

end Postfix

namespace Formula
variable {values : Lookup} {text : String} {e : Formula.Error}

theorem ofEvaluation_of_evaluate (h : evaluate values text = .error e) : e.OfEvaluation := by
  unfold evaluate at h
  split at h
  · obtain rfl := Except.error.inj h
    trivial
  · simp only at h
    split at h
    · next hinvalid =>
      obtain rfl := Except.error.inj h
      obtain ⟨t, -, ht⟩ := List.exists_of_findSome?_eq_some hinvalid
      obtain ⟨text, -, rfl⟩ := Token.invalid?_eq_some_iff.1 ht
      trivial
    · split at h
      · exact Postfix.ofEvaluation_of_eval h
      · next hprog =>
        obtain rfl := Except.error.inj h
        exact Postfix.ofEvaluation_of_arrange hprog

theorem value_ne_cyclicDependency : value values text ≠ .error .cyclicDependency := by
  rw [value]
  split
  · nofun
  · next e he =>
    have hof := ofEvaluation_of_evaluate he
    cases e <;> simp_all [Error.OfEvaluation, Error.kind]

end Formula

end Spreadsheet
