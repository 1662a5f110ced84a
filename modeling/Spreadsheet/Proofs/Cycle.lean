import Mathlib.Data.Fintype.Card
import Mathlib.Data.Set.Finite.Basic
import Mathlib.Logic.Relation

/-!
# Cycles of a relation

An element lies on a cycle if a path of one or more steps leads from it back to it. `Inside R S` keeps
the steps of `R` that stay in `S`. The main fact is `exists_cycle_inside`: where each element of a finite
set has a predecessor in the set, the set holds a cycle. It is used twice, for what a plan cannot order
and for the cells in which two settled stores could differ. `PrecedentsFirst` is the order of a plan.
-/

namespace Spreadsheet
open Relation

variable {α : Type*} {R R' E : α → α → Prop} {S : Set α} {a b x : α}

/-- The steps of a relation that stay inside a set. -/
def Inside (R : α → α → Prop) (S : Set α) (a b : α) : Prop := a ∈ S ∧ b ∈ S ∧ R a b

theorem Inside.step (h : Inside R S a b) : R a b := h.2.2

theorem Inside.mono {T : Set α} (hST : S ⊆ T) (h : Inside R S a b) : Inside R T a b :=
  ⟨hST h.1, hST h.2.1, h.2.2⟩

theorem transGen_of_inside (h : TransGen (Inside R S) a b) : TransGen R a b :=
  TransGen.mono (fun _ _ => Inside.step) _ _ h

theorem transGen_inside_mono {T : Set α} (hST : S ⊆ T) (h : TransGen (Inside R S) a b) :
    TransGen (Inside R T) a b :=
  TransGen.mono (fun _ _ => Inside.mono hST) _ _ h

theorem mem_of_transGen_inside (h : TransGen (Inside R S) a b) : a ∈ S ∧ b ∈ S := by
  induction h with
  | single h => exact ⟨h.1, h.2.1⟩
  | tail _ h ih => exact ⟨ih.1, h.2.1⟩

theorem transGen_inside_of_closed (hS : ∀ a b, a ∈ S → R a b → b ∈ S) (ha : a ∈ S) (h : TransGen R a b) :
    TransGen (Inside R S) a b := by
  induction h with
  | single h => exact .single ⟨ha, hS _ _ ha h, h⟩
  | tail _ h ih =>
    have hb := (mem_of_transGen_inside ih).2
    exact ih.tail ⟨hb, hS _ _ hb h, h⟩

theorem exists_pred_of_cycle (h : TransGen R b b) : ∃ a, TransGen R a a ∧ R a b := by
  obtain ⟨a, hba, hab⟩ := TransGen.tail'_iff.1 h
  exact ⟨a, TransGen.head' hab hba, hab⟩

/-- A cycle runs through elements that lie on cycles only. -/
theorem transGen_inside_cycles (h : TransGen R a a) : TransGen (Inside R {x | TransGen R x x}) a a := by
  suffices hpath : ∀ b, TransGen R a b → ReflTransGen R b a →
      TransGen (Inside R {x | TransGen R x x}) a b from hpath a h .refl
  intro b hab
  induction hab with
  | single hab => exact fun hba => .single ⟨h, .tail' hba hab, hab⟩
  | tail _ hbc ih =>
    intro hca
    have hb := ih (hca.head hbc)
    have hcc := TransGen.tail' (hca.trans (transGen_of_inside hb).to_reflTransGen) hbc
    exact hb.tail ⟨(mem_of_transGen_inside hb).2, hcc, hbc⟩

theorem exists_cycle_inside (hfin : S.Finite) (hne : S.Nonempty) (h : ∀ b ∈ S, ∃ a ∈ S, R a b) :
    ∃ a ∈ S, TransGen (Inside R S) a a := by
  by_contra hno
  push Not at hno
  have : Finite S := hfin
  let r : S → S → Prop := fun a b => TransGen (Inside R S) a b
  have : IsTrans S r := ⟨fun _ _ _ => TransGen.trans⟩
  have : Std.Irrefl r := ⟨fun a => hno a a.2⟩
  have none_left : ∀ x : S, False := by
    refine (Finite.wellFounded_of_trans_of_irrefl r).fix fun b ih => ?_
    obtain ⟨a, ha, hab⟩ := h b b.2
    exact ih ⟨a, ha⟩ (.single ⟨ha, b.2, hab⟩)
  obtain ⟨x, hx⟩ := hne
  exact none_left ⟨x, hx⟩

/-- If two relations differ at most in the steps that enter `x`, a path of the one is a path of the other
or can be entered from `x`. -/
theorem transGen_or_reflTransGen (hR : ∀ a b, b ≠ x → R a b → R' a b) (hE : ∀ a b, b ≠ x → R a b → E a b)
    (h : TransGen R a b) : TransGen R' a b ∨ ReflTransGen E x b := by
  induction h with
  | @single b h =>
    by_cases hb : b = x
    · exact .inr (hb ▸ .refl)
    · exact .inl (.single (hR _ _ hb h))
  | @tail b c _ h ih =>
    by_cases hc : c = x
    · exact .inr (hc ▸ .refl)
    · exact ih.imp (·.tail (hR _ _ hc h)) (·.tail (hE _ _ hc h))

/-- What can be reached from `x` does not depend on the steps that enter `x`. -/
theorem transGen_of_agree (hR : ∀ a b, b ≠ x → R a b → R' a b) (hb : b ≠ x) (h : TransGen R x b) :
    TransGen R' x b := by
  rcases transGen_or_reflTransGen hR hR h with h | h
  · exact h
  · exact (reflTransGen_iff_eq_or_transGen.1 h).resolve_left hb

/-- A change of the steps that enter `x` makes or breaks only cycles that can be reached from `x`. -/
theorem cycle_iff_of_unreached (hR : ∀ a b, b ≠ x → (R a b ↔ R' a b)) (ha : a ≠ x)
    (hno : ¬ TransGen R' x a) : TransGen R a a ↔ TransGen R' a a := by
  have hno' : ¬ ReflTransGen R' x a := fun h => (reflTransGen_iff_eq_or_transGen.1 h).elim ha hno
  have hto : ∀ a b, b ≠ x → R a b → R' a b := fun a b hb => (hR a b hb).1
  have hof : ∀ a b, b ≠ x → R' a b → R a b := fun a b hb => (hR a b hb).2
  constructor
  · exact fun h => (transGen_or_reflTransGen hto hto h).resolve_right hno'
  · exact fun h => (transGen_or_reflTransGen hof (fun _ _ _ => id) h).resolve_right hno'

/-- No element of the list has itself or a later element as a predecessor. -/
def PrecedentsFirst (R : α → α → Prop) : List α → Prop
  | [] => True
  | r :: rs => (∀ p ∈ r :: rs, ¬ R p r) ∧ PrecedentsFirst R rs

theorem PrecedentsFirst.of_append_right {rs rs' : List α} (h : PrecedentsFirst R (rs ++ rs')) :
    PrecedentsFirst R rs' := by
  induction rs with
  | nil => exact h
  | cons r rs ih => exact ih h.2

/-- From its last turn on, an element of the list has no predecessor among those to come. -/
theorem PrecedentsFirst.exists_turn {rs : List α} (h : PrecedentsFirst R rs) (ha : a ∈ rs) :
    ∃ before behind, rs = before ++ a :: behind ∧ a ∉ behind ∧ ∀ p ∈ a :: behind, ¬ R p a := by
  induction rs with
  | nil => cases ha
  | cons r rs ih =>
    by_cases hmem : a ∈ rs
    · obtain ⟨before, behind, rfl, hturn⟩ := ih h.2 hmem
      exact ⟨r :: before, behind, rfl, hturn⟩
    · obtain rfl : a = r := (List.mem_cons.1 ha).resolve_right hmem
      exact ⟨[], rs, rfl, hmem, h.1⟩

theorem PrecedentsFirst.append {rs rs' : List α} (h : PrecedentsFirst R rs) (h' : PrecedentsFirst R rs')
    (hacross : ∀ r ∈ rs, ∀ p ∈ rs', ¬ R p r) : PrecedentsFirst R (rs ++ rs') := by
  induction rs with
  | nil => exact h'
  | cons r rs ih =>
    refine ⟨fun p hp => ?_, ih h.2 fun r hr => hacross r (List.mem_cons_of_mem _ hr)⟩
    rcases List.mem_append.1 (List.cons_append ▸ hp) with hp | hp
    · exact h.1 p hp
    · exact hacross r List.mem_cons_self p hp

end Spreadsheet
