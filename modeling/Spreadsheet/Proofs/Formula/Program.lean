import Spreadsheet.Proofs.Formula.Expr
import Spreadsheet.Proofs.Formula.Reads

/-!
# Programs that run to their end

Each number on the stack of a run stands for a tree, and the items that were run are the postorders of
these trees, the bottom one first (`listing_of_exec`). At the end of an evaluation one number is left, so
a program that evaluates is the postorder of a tree (`eval_eq_ok_iff`), whatever tokens it came from, and
of no other one (`Expr.postorder_injective`).
-/

namespace Spreadsheet

namespace Expr
variable {e e' : Expr} {is is' : List Item}

/-- Read from its end, a list of items has at most one tree to take off. -/
theorem append_postorder_inj (h : is ++ e.postorder = is' ++ e'.postorder) : is = is' ∧ e = e' := by
  induction e generalizing is is' e' with
  | number x | ref r => cases e' <;> simp_all [postorder, ← List.append_assoc]
  | negate e ih =>
    cases e' with
    | negate e' =>
      simp only [postorder, ← List.append_assoc, List.append_cancel_right_eq] at h
      obtain ⟨his, rfl⟩ := ih h
      exact ⟨his, rfl⟩
    | _ => simp [postorder, ← List.append_assoc] at h
  | binary op left right ihl ihr =>
    cases e' with
    | binary op' left' right' =>
      simp only [postorder, ← List.append_assoc, List.append_singleton_inj] at h
      obtain ⟨hleft, rfl⟩ := ihr h.1
      obtain ⟨his, rfl⟩ := ihl hleft
      exact ⟨his, by rw [Item.binary.inj h.2]⟩
    | _ => simp [postorder, ← List.append_assoc] at h

theorem postorder_injective : Function.Injective postorder := fun e e' h =>
  (@append_postorder_inj e e' [] [] h).2

end Expr

namespace Postfix
variable {values : Lookup} {stack out : List Float} {is : List Item} {i : Item} {e : Expr} {es : List Expr}
variable {x : Float}

/-- The items of some trees. The last tree comes first, as on a stack. -/
def listing (es : List Expr) : List Item := es.reverse.flatMap Expr.postorder

theorem listing_cons : listing (e :: es) = listing es ++ e.postorder := by simp [listing]

/-- A step puts a tree on the stack, or makes one of the trees on top. -/
theorem listing_of_step (h : step values stack i = .ok out) (hlen : es.length = stack.length) :
    ∃ es', es'.length = out.length ∧ listing es' = listing es ++ [i] := by
  unfold step at h
  split at h
  · next x =>
    obtain rfl := Except.ok.inj h
    exact ⟨.number x :: es, by simp [hlen], listing_cons⟩
  · next r =>
    obtain ⟨x, -, rfl⟩ := Except.map_eq_ok.1 h
    exact ⟨.ref r :: es, by simp [hlen], listing_cons⟩
  · obtain rfl := Except.ok.inj h
    rcases es with _ | ⟨e, es⟩
    · cases hlen
    · exact ⟨.negate e :: es, hlen, by simp [listing_cons, Expr.postorder]⟩
  · next op =>
    obtain ⟨z, -, rfl⟩ := Except.map_eq_ok.1 h
    rcases es with _ | ⟨right, _ | ⟨left, es⟩⟩
    · cases hlen
    · cases hlen
    · exact ⟨.binary op left right :: es, by simpa using hlen, by simp [listing_cons, Expr.postorder]⟩
  · cases h

theorem listing_of_exec (h : exec values stack is = .ok out) (hlen : es.length = stack.length) :
    ∃ es', es'.length = out.length ∧ listing es' = listing es ++ is := by
  induction is generalizing stack es with
  | nil =>
    obtain rfl := Except.ok.inj h
    exact ⟨es, hlen, by rw [List.append_nil]⟩
  | cons i is ih =>
    simp only [exec] at h
    split at h
    · next hstep =>
      obtain ⟨es₁, hlen₁, hlist₁⟩ := listing_of_step hstep hlen
      obtain ⟨es₂, hlen₂, hlist₂⟩ := ih h hlen₁
      exact ⟨es₂, hlen₂, by rw [hlist₂, hlist₁, List.append_assoc, List.singleton_append]⟩
    · cases h

theorem eq_singleton_of_result (h : result stack = .ok x) : stack = [x] := by
  unfold result at h
  split at h
  · cases h
  · split at h
    · rw [Except.ok.inj h]
    · cases h
  · cases h

/-- The programs that evaluate are the postorders of the trees that do. -/
theorem eval_eq_ok_iff :
    eval values is = .ok x ↔ ∃ e : Expr, is = e.postorder ∧ e.evaluate values = .ok x := by
  constructor
  · intro h
    have hrun := h
    unfold eval at hrun
    split at hrun
    · next hexec =>
      rw [eq_singleton_of_result hrun] at hexec
      obtain ⟨es, hlen, hlist⟩ := listing_of_exec hexec (rfl : ([] : List Expr).length = 0)
      obtain ⟨e, rfl⟩ := List.length_eq_one_iff.1 hlen
      have his : is = e.postorder := by simpa [listing] using hlist.symm
      exact ⟨e, his, by rw [← eval_postorder, ← his, h]⟩
    · cases hrun
  · rintro ⟨e, rfl, he⟩
    rw [eval_postorder, he]

end Postfix

namespace Formula
variable {values : Lookup} {text : String} {x : Float}

/-- What evaluates is arranged as the postorder of a tree, and its number is that of the tree. -/
theorem exists_tree_of_evaluate (h : evaluate values text = .ok x) :
    ∃ expr, ∃ e : Expr, expression? text = some expr ∧
      Postfix.ofTokens (Token.scan expr) = .ok e.postorder ∧ e.evaluate values = .ok x := by
  unfold evaluate at h
  split at h
  · cases h
  · next expr hexpr =>
    simp only at h
    split at h
    · cases h
    · split at h
      · next hprog =>
        obtain ⟨e, rfl, he⟩ := Postfix.eval_eq_ok_iff.1 h
        exact ⟨expr, e, hexpr, hprog, he⟩
      · cases h

end Formula

end Spreadsheet
