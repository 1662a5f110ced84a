import Spreadsheet.Proofs.Formula.Signs
import Spreadsheet.Proofs.Sheet.Session

/-!
# The numbers of a sheet

Numbers come into a sheet by literals and by evaluation, and both let only finite ones through: a literal
becomes a number only if that number is written as it was typed, and an evaluation has to end with a finite
number, whatever it meets on the way. So every number of a session is finite (`InSession.holdsFinite`), and the
text shown for it is a literal of the same number. Typed into a cell it counts as the number itself
(`numbers_retyped`), up to the sign of zero, which is not shown.
-/

namespace Spreadsheet

/-- The value is not an infinite number, nor what is not a number. -/
def Value.Finite (v : Value) : Prop := ∀ x, v = .number x → x.isFinite

theorem Value.finite_ofLiteral (input : String) : (ofLiteral input).Finite := fun _ => isFinite_of_ofLiteral

theorem Formula.finite_value (values : Lookup) (text : String) : (value values text).Finite := by
  intro x hx
  unfold value at hx
  split at hx
  · next heval =>
    obtain rfl := Value.number.inj hx
    obtain ⟨_, e, -, -, he⟩ := exists_tree_of_evaluate heval
    exact (Expr.evaluate_eq_ok_iff.1 he).2
  · cases hx

theorem Value.number?_ofLiteral (input : String) : (ofLiteral input).number? = Number.ofLiteral? input := by
  unfold ofLiteral
  cases hx : Number.ofLiteral? input with
  | none => exact hx
  | some x =>
    simp only
    split
    · rfl
    · exact hx

theorem Formula.not_expression?_of_ofLiteral? {text : String} {x : Float} (h : Number.ofLiteral? text = some x) :
    ¬ (expression? text).isSome := by
  intro hformula
  obtain ⟨cs, hcs⟩ := List.head?_eq_some_iff.1 (isSome_expression?_iff.1 hformula)
  rw [Number.ofLiteral?, hcs] at h
  cases h

namespace Store
variable {s : Store} {r : Ref} {v : Value} {formula : Option String}

/-- No cell has an infinite number. -/
def HoldsFinite (s : Store) : Prop := ∀ r v, s.values r = some v → v.Finite

namespace HoldsFinite

theorem put (h : s.HoldsFinite) (hv : v.Finite) : (s.put r v formula).HoldsFinite := by
  intro x w hw
  rw [values, Store.put, Std.ExtTreeMap.getElem?_insert] at hw
  split at hw
  · obtain rfl := Option.some.inj hw
    exact hv
  · exact h x w hw

theorem replaceValue (h : s.HoldsFinite) (hv : v.Finite) : (s.replaceValue r v).HoldsFinite := by
  intro x w hw
  rw [values, getElem?_replaceValue] at hw
  split at hw
  · rw [Option.map_map] at hw
    obtain ⟨c, -, rfl⟩ := Option.map_eq_some_iff.1 hw
    exact hv
  · exact h x w hw

theorem foldl_replaceValue (h : s.HoldsFinite) (hv : v.Finite) (rs : List Ref) :
    (rs.foldl (fun s r => s.replaceValue r v) s).HoldsFinite := by
  induction rs generalizing s with
  | nil => exact h
  | cons r rs ih => exact ih (h.replaceValue hv)

theorem recomputeAll (h : s.HoldsFinite) (rs : List Ref) : (s.recomputeAll rs).2.HoldsFinite := by
  induction rs generalizing s with
  | nil => exact h
  | cons r rs ih =>
    cases hf : s.formula? r with
    | none =>
      rw [recomputeAll_cons_none hf]
      exact ih h
    | some f =>
      rw [recomputeAll_cons_some hf]
      exact ih (h.replaceValue (Formula.finite_value _ _))

end HoldsFinite

end Store

namespace Sheet
variable {s : Sheet} {r : Ref} {input : String} {x : Float}

/-! ### Numbers stay finite -/

theorem holdsFinite_put (h : s.cells.HoldsFinite) (r : Ref) (input : String) :
    (s.put r input).cells.HoldsFinite := by
  unfold put
  split
  · exact h.put (Formula.finite_value _ _)
  · exact h.put (Value.finite_ofLiteral input)

theorem holdsFinite_follow (h : s.cells.HoldsFinite) (plan : Plan) : (s.follow plan).2.cells.HoldsFinite := by
  have hmark : (Value.error .cyclicDependency).Finite := fun _ hx => by cases hx
  exact (h.foldl_replaceValue hmark plan.cycles).recomputeAll plan.order

theorem holdsFinite_propagate (h : s.cells.HoldsFinite) (r : Ref) : (s.propagate r).2.cells.HoldsFinite := by
  unfold propagate
  split
  · exact holdsFinite_follow h _
  · exact h.recomputeAll _

theorem holdsFinite_initAll (h : s.cells.HoldsFinite) (literals : List (Ref × String)) :
    (s.initAll literals).cells.HoldsFinite := by
  intro x v hv
  rw [Store.values] at hv
  rcases getElem?_initAll (s := s) (x := x) literals with hold | ⟨-, literal, -, hnew⟩
  · rw [hold] at hv
    exact h x v hv
  · rw [hnew] at hv
    obtain rfl := Option.some.inj hv
    exact Value.finite_ofLiteral literal

theorem holdsFinite_apply (h : s.cells.HoldsFinite) (op : Op) : (s.apply op).cells.HoldsFinite := by
  rcases s.apply_cases op with ⟨r, input, -, happly⟩ | ⟨-, happly⟩ | ⟨-, -, mode, happly⟩ <;> rw [happly]
  · exact holdsFinite_propagate (holdsFinite_put h r input) r
  · exact holdsFinite_initAll h op.literals
  · exact holdsFinite_follow (s := { s with mode }) h _

theorem InSession.holdsFinite (h : s.InSession) : s.cells.HoldsFinite := by
  induction h with
  | empty mode =>
    intro x v hv
    simp [Sheet.empty, Store.values] at hv
  | apply op _ ih => exact holdsFinite_apply ih op
  | assign _ _ _ _ ih => exact ih

/-! ### Numbers typed again -/

theorem display_of_values (h : s.cells.values r = some (.number x)) : s.display r = Number.text x := by
  obtain ⟨c, hc, hvalue⟩ := Option.map_eq_some_iff.1 h
  rw [display, cell?, hc, Option.map_some, Option.getD_some, Cell.display, hvalue]
  rfl

theorem cell?_set_literal (h : s.InSession) (hx : Number.ofLiteral? input = some x) :
    (s.set r input).2.cell? r = some ⟨.ofLiteral input, none⟩ := by
  have hcontent : (s.set r input).2.cells.content? r = _ := h.mirrored.content?_set
  rw [if_pos rfl, Cell.contentOf, if_neg (Formula.not_expression?_of_ofLiteral? hx)] at hcontent
  obtain ⟨⟨v, f⟩, hc, hcell⟩ := Option.map_eq_some_iff.1 hcontent
  cases f with
  | some f => cases hcell
  | none =>
    obtain rfl := Sum.inr.inj hcell
    exact hc

theorem unsigned_values_update (h : s.cell? r = some ⟨.number (Number.unsigned x), none⟩) :
    Lookup.unsigned (Function.update s.cells.values r (some (.number x))) = s.cells.values.unsigned := by
  funext a
  unfold Lookup.unsigned
  by_cases ha : a = r
  · subst ha
    have hvalue : s.cells.values a = some (.number (Number.unsigned x)) := congrArg (Option.map Cell.value) h
    rw [Function.update_self, hvalue, Option.map_some, Option.map_some, Value.unsigned, Value.unsigned,
      Number.unsigned_unsigned]
  · rw [Function.update_of_ne ha]

/-- Typed into a cell, the text counts as the number. -/
structure Retypes (shown : String) (x : Float) : Prop where
  literal : Number.ofLiteral? shown = some (Number.unsigned x)
  value : Value.ofLiteral shown = .number (Number.unsigned x)
  cell : ∀ t : Sheet, t.InSession → ∀ q,
    (t.set q shown).2.cell? q = some ⟨.number (Number.unsigned x), none⟩ ∧ (t.set q shown).2.display q = shown
  /-- Formulas give what they would give with the number itself. -/
  evaluate : ∀ t : Sheet, t.InSession → ∀ q formula,
    ((t.set q shown).2.evaluate formula).unsigned =
      (Formula.value (Function.update (t.set q shown).2.cells.values q (some (.number x))) formula).unsigned

theorem retypes_text (hx : x.isFinite) : Retypes (Number.text x) x := by
  have hliteral : Number.ofLiteral? (Number.text x) = some (Number.unsigned x) := Number.ofLiteral?_text hx
  have hcell : ∀ t : Sheet, t.InSession → ∀ q,
      (t.set q (Number.text x)).2.cell? q = some ⟨.number (Number.unsigned x), none⟩ := fun t ht q => by
    rw [cell?_set_literal ht hliteral, Value.ofLiteral_text hx]
  refine ⟨hliteral, Value.ofLiteral_text hx, fun t ht q => ⟨hcell t ht q, ?_⟩, fun t ht q formula => ?_⟩
  · rw [display_of_values (congrArg (Option.map Cell.value) (hcell t ht q)), Number.text_unsigned]
  · rw [Sheet.evaluate, ← Formula.unsigned_value, ← unsigned_values_update (hcell t ht q), Formula.unsigned_value]

/-- The numbers of a session are finite and can be typed again, although a literal of many digits is infinite
as an operand. -/
theorem numbers_retyped (h : s.InSession) :
    (∀ r x, s.cells.values r = some (.number x) → x.isFinite ∧ Retypes (s.display r) x) ∧
      ∀ c cs, (∀ d ∈ c :: cs, d.isDigit) → c ≠ '0' → 309 ≤ cs.length →
        (Value.ofLiteral (String.ofList (c :: cs))).number? =
          some (Magnitude.toFloat false Magnitude.infinity) := by
  constructor
  · intro r x hx
    have hfinite : x.isFinite := h.holdsFinite r _ hx x rfl
    rw [display_of_values hx]
    exact ⟨hfinite, retypes_text hfinite⟩
  · intro c cs hdigits hc hlength
    rw [Value.number?_ofLiteral]
    exact Number.ofLiteral?_of_many_digits hdigits hc hlength

/-- The product in `C1` is infinite, so that the quotient is a zero with a sign. -/
theorem numbers_retyped_behind_overflow :
    let s := (Sheet.empty .topological).after
      [.set ⟨0, 0⟩ "1000000000000000000000", .set ⟨0, 1⟩ "=A1*A1*A1*A1*A1", .set ⟨0, 2⟩ "=-1/(B1*B1*B1)"]
    s.cells.values ⟨0, 2⟩ = some (.number (-0)) ∧ s.display ⟨0, 2⟩ = "0" ∧ Retypes "0" (-0) ∧
      (Value.ofLiteral (String.ofList ('9' :: List.replicate 309 '9'))).number? =
        some (Magnitude.toFloat false Magnitude.infinity) := by
  intro s
  obtain ⟨hnumbers, hoperands⟩ := numbers_retyped (.after (.empty .topological) _ : s.InSession)
  have hC1 : s.cells.values ⟨0, 2⟩ = some (.number (-0)) := by decide +kernel
  have hshown : s.display ⟨0, 2⟩ = "0" := display_of_values hC1
  refine ⟨hC1, hshown, hshown ▸ (hnumbers _ _ hC1).2, hoperands '9' _ (fun d hd => ?_) (by decide) ?_⟩
  · rcases List.mem_cons.1 hd with rfl | hd
    · rfl
    · rw [List.eq_of_mem_replicate hd]
      rfl
  · rw [List.length_replicate]

end Sheet

end Spreadsheet
