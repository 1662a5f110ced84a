import Spreadsheet.Proofs.Store.Recompute

/-!
# Settled stores

In a settled store each formula cell holds the mark of cycles or the value of its formula over the store
itself. `Settled.eq`: the contents determine a settled store. A cell in which two of them differed would
read another one, and so on round to a cycle, whose cells hold the mark in both. `SettledAt.congr` is what
carries a cell through a change that touches nothing it reads.
-/

namespace Spreadsheet
open Relation

namespace Store
variable {s t : Store} {R R' : Ref → Ref → Prop} {r x : Ref} {f : String}

/-- A formula cell holds the mark of cycles exactly if steps lead from it back to it, and the value of its
formula over the cells as they are if not. -/
structure SettledAt (s : Store) (R : Ref → Ref → Prop) (r : Ref) : Prop where
  marked : ∀ f, s.formula? r = some f → (s.values r = some (.error .cyclicDependency) ↔ TransGen R r r)
  computed : ∀ f, s.formula? r = some f → ¬ TransGen R r r → s.values r = some (Formula.value s.values f)

/-- All formula cells are settled, where the steps of `R` say which cells feed which. -/
def Settled (s : Store) (R : Ref → Ref → Prop) : Prop := ∀ r, s.SettledAt R r

/-- A value computed never is the mark. -/
theorem SettledAt.of (hmarked : TransGen R r r → s.values r = some (.error .cyclicDependency))
    (hcomputed : ∀ f, s.formula? r = some f → ¬ TransGen R r r →
      s.values r = some (Formula.value s.values f)) : s.SettledAt R r where
  marked f hf := by
    refine ⟨fun hmark => ?_, hmarked⟩
    by_contra hno
    exact Formula.value_ne_cyclicDependency (Option.some.inj ((hcomputed f hf hno).symm.trans hmark))
  computed := hcomputed

theorem SettledAt.of_literal (h : s.formula? r = none) : s.SettledAt R r where
  marked f hf := by cases h.symm.trans hf
  computed f hf := by cases h.symm.trans hf

theorem SettledAt.congr (h : s.SettledAt R r) (hcycle : TransGen R r r ↔ TransGen R' r r)
    (hformula : t.formula? r = s.formula? r) (hvalue : t.values r = s.values r)
    (hread : ∀ a, s.Feeds a r → t.values a = s.values a) : t.SettledAt R' r where
  marked f hf := by
    rw [hvalue, ← hcycle]
    exact h.marked f (hformula ▸ hf)
  computed f hf hno := by
    rw [hformula] at hf
    rw [hvalue, h.computed f hf (hno ∘ hcycle.1), Formula.value_congr fun a ha => hread a ⟨f, hf, ha⟩]

/-! ### One settled store for the contents -/

theorem exists_formula?_of_cycle (h : TransGen s.Feeds r r) : ∃ f, s.formula? r = some f := by
  obtain ⟨a, -, har⟩ := exists_pred_of_cycle h
  exact har.formula?

theorem getElem?_congr (he : s.content? r = t.content? r) (hv : s.values r = t.values r) :
    s[r]? = t[r]? := by
  unfold content? Cell.content at he
  unfold values at hv
  cases hs : s[r]? <;> cases ht : t[r]? <;> simp only [hs, ht, Option.map_some, Option.map_none] at he hv
  · rfl
  · cases hv
  · cases hv
  · next c d =>
    obtain ⟨v, f⟩ := c
    obtain ⟨w, g⟩ := d
    cases f <;> cases g <;> simp_all

theorem values_congr_of_literal (he : s.content? = t.content?) (hr : s.formula? r = none) :
    s.values r = t.values r := by
  have hr' : t.formula? r = none := formula?_congr he ▸ hr
  have he := congrFun he r
  unfold content? Cell.content at he
  unfold formula? at hr hr'
  unfold values
  cases hs : s[r]? <;> cases ht : t[r]? <;> simp_all

theorem SettledAt.values_congr_of_cycle (h : s.SettledAt R r) (h' : t.SettledAt R r)
    (he : s.content? = t.content?) (hf : s.formula? r = some f) (hcycle : TransGen R r r) :
    s.values r = t.values r :=
  ((h.marked f hf).2 hcycle).trans ((h'.marked f (formula?_congr he ▸ hf)).2 hcycle).symm

/-- Two settled stores with the same contents agree on a cell if they agree on what it reads. -/
theorem SettledAt.values_congr (h : s.SettledAt R r) (h' : t.SettledAt R r)
    (he : s.content? = t.content?) (hread : ∀ a, s.Feeds a r → s.values a = t.values a) :
    s.values r = t.values r := by
  cases hf : s.formula? r with
  | none => exact values_congr_of_literal he hf
  | some f =>
    by_cases hcycle : TransGen R r r
    · exact h.values_congr_of_cycle h' he hf hcycle
    · have hf' : t.formula? r = some f := formula?_congr he ▸ hf
      have hvalue : Formula.value s.values f = Formula.value t.values f :=
        Formula.value_congr fun a ha => hread a ⟨f, hf, ha⟩
      rw [h.computed f hf hcycle, h'.computed f hf' hcycle, hvalue]

theorem finite_values_ne : {r | s.values r ≠ t.values r}.Finite := by
  have hnone : ∀ (u : Store) (r : Ref), r ∉ u.keys → u.values r = none := fun u r hr => by
    rw [Std.ExtTreeMap.mem_keys] at hr
    rw [values, Std.ExtTreeMap.getElem?_eq_none hr]
    rfl
  refine (List.finite_toSet (s.keys ++ t.keys)).subset fun r hr => ?_
  by_contra hnot
  obtain ⟨hs, ht⟩ := not_or.1 (mt List.mem_append.2 hnot)
  exact hr ((hnone s r hs).trans (hnone t r ht).symm)

theorem Settled.eq (h : s.Settled s.Feeds) (h' : t.Settled t.Feeds) (he : s.content? = t.content?) :
    s = t := by
  rw [← feeds_congr (formula?_congr he)] at h'
  have hnone : ¬ {r | s.values r ≠ t.values r}.Nonempty := by
    intro hsome
    obtain ⟨x, hx, hcycle⟩ := exists_cycle_inside (R := s.Feeds) finite_values_ne hsome fun r hr => by
      by_contra hagree
      push Not at hagree
      exact hr ((h r).values_congr (h' r) he fun a har => by_contra fun hne => hagree a hne har)
    have hcycle := transGen_of_inside hcycle
    obtain ⟨f, hf⟩ := exists_formula?_of_cycle hcycle
    exact hx ((h x).values_congr_of_cycle (h' x) he hf hcycle)
  refine Std.ExtTreeMap.ext_getElem? fun r => getElem?_congr (congrFun he r) ?_
  exact by_contra fun hne => hnone ⟨r, hne⟩

end Store

end Spreadsheet
