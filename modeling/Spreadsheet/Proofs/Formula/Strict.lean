import Spreadsheet.Proofs.Formula.Program

/-!
# Evaluation is strict

A program that runs to its end has read each of its operands (`Postfix.operand_of_exec`), and rearranging
loses none, so a formula has a number only if every cell that it mentions holds one. Nothing that stands
between an operand and the result makes up for it, not even a multiplication by zero.
-/

namespace Spreadsheet

namespace Lookup
variable {values : Lookup} {r : Ref} {x : Float}

/-- The number that a cell holds, nothing where there is no cell. -/
def number? (values : Lookup) (r : Ref) : Option Float := (values r).bind Value.number?

theorem operand_eq_ok_iff : values.operand r = .ok x ↔ values.number? r = some x := by
  unfold operand number?
  cases values r with
  | none => simp
  | some v => cases hx : v.number? <;> simp [hx]

end Lookup

namespace Postfix
variable {values : Lookup} {stack out : List Float} {is : List Item} {r : Ref} {x : Float}

theorem operand_of_step (h : step values stack (.ref r) = .ok out) : ∃ x, values.operand r = .ok x := by
  rw [step] at h
  obtain ⟨x, hx, -⟩ := Except.map_eq_ok.1 h
  exact ⟨x, hx⟩

theorem operand_of_exec (h : exec values stack is = .ok out) (hr : .ref r ∈ is) :
    ∃ x, values.operand r = .ok x := by
  induction is generalizing stack with
  | nil => cases hr
  | cons i is ih =>
    rw [exec] at h
    split at h
    · next hstep =>
      rcases List.mem_cons.1 hr with rfl | hr
      · exact operand_of_step hstep
      · exact ih h hr
    · cases h

theorem operand_of_eval (h : eval values is = .ok x) (hr : .ref r ∈ is) : ∃ x, values.operand r = .ok x := by
  rw [eval] at h
  split at h
  · next hexec => exact operand_of_exec hexec hr
  · cases h

end Postfix

namespace Formula
variable {values : Lookup} {text : String} {x : Float} {r : Ref}

theorem number?_of_evaluate (h : evaluate values text = .ok x) (hr : r ∈ references text) :
    ∃ y, values.number? r = some y := by
  obtain ⟨expr, e, hexpr, hprog, he⟩ := exists_tree_of_evaluate h
  have htoken : .ref r ∈ Token.scan expr := by
    rw [mem_references, hexpr] at hr
    exact hr
  have hitem : .ref r ∈ e.postorder := (Postfix.ref_mem_of_arrange hprog).2 htoken
  rw [← Postfix.eval_postorder] at he
  obtain ⟨y, hy⟩ := Postfix.operand_of_eval he hitem
  exact ⟨y, Lookup.operand_eq_ok_iff.1 hy⟩

theorem value_eq_error (hr : r ∈ references text) (h : values.number? r = none) :
    ∃ e, value values text = .error e := by
  rw [value]
  cases he : evaluate values text with
  | error e => exact ⟨e.kind, rfl⟩
  | ok x =>
    obtain ⟨y, hy⟩ := number?_of_evaluate he hr
    cases h.symm.trans hy

end Formula

end Spreadsheet
