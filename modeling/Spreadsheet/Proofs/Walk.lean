import Mathlib.Data.List.Basic
import Mathlib.Logic.ExistsUnique
import Mathlib.Logic.Relation

/-!
# Walks

A walk is the list of the elements that it enters, one after the other; it may enter an element again. Where
exactly one walk leads from `a` to `b`, no cycle can be met on the way (`OnlyWalk.not_cycle_start`,
`OnlyWalk.not_cycle`), and of the elements that can be reached from `a` one alone steps to `b`
(`OnlyWalk.eq_of_steps`), to which only one walk leads as well (`OnlyWalk.of_step`). Conversely only one walk
leads on from there (`OnlyWalk.step`), so where one of these elements alone steps to each of them, only one
walk leads to each (`onlyWalk_of_steps`).
-/

namespace Spreadsheet
open Relation

variable {α : Type*} {R : α → α → Prop} {a b c x y : α} {l m : List α}

/-- The walk that enters the elements of the list leads from `a` to `b`. -/
def Walk (R : α → α → Prop) : (a : α) → List α → (b : α) → Prop
  | a, [], b => a = b
  | a, x :: l, b => R a x ∧ Walk R x l b

theorem walk_append : Walk R a (l ++ m) c ↔ ∃ b, Walk R a l b ∧ Walk R b m c := by
  induction l generalizing a with
  | nil => simp [Walk]
  | cons x l ih => simp only [List.cons_append, Walk, ih, and_assoc, exists_and_left]

theorem walk_concat : Walk R a (l ++ [x]) b ↔ x = b ∧ ∃ y, Walk R a l y ∧ R y b := by
  rw [walk_append]
  constructor
  · rintro ⟨y, hl, hyx, rfl⟩
    exact ⟨rfl, y, hl, hyx⟩
  · rintro ⟨rfl, y, hl, hyx⟩
    exact ⟨y, hl, hyx, rfl⟩

theorem Walk.end_eq (h : Walk R a l b) (h' : Walk R a l c) : b = c := by
  induction l generalizing a with
  | nil => exact h.symm.trans h'
  | cons x l ih => exact ih h.2 h'.2

theorem Walk.reflTransGen (h : Walk R a l b) : ReflTransGen R a b := by
  induction l generalizing a with
  | nil => exact h ▸ .refl
  | cons x l ih => exact (ih h.2).head h.1

theorem Walk.transGen (h : Walk R a l b) (hne : l ≠ []) : TransGen R a b := by
  obtain ⟨x, l, rfl⟩ := List.exists_cons_of_ne_nil hne
  exact .head' h.1 h.2.reflTransGen

theorem exists_walk (h : ReflTransGen R a b) : ∃ l, Walk R a l b := by
  induction h with
  | refl => exact ⟨[], rfl⟩
  | tail _ hbc ih =>
    obtain ⟨l, hl⟩ := ih
    exact ⟨l ++ [_], walk_concat.2 ⟨rfl, _, hl, hbc⟩⟩

theorem exists_walk_of_transGen (h : TransGen R a b) : ∃ l ≠ [], Walk R a l b := by
  obtain ⟨x, hax, hxb⟩ := TransGen.head'_iff.1 h
  obtain ⟨l, hl⟩ := exists_walk hxb
  exact ⟨x :: l, List.cons_ne_nil x l, hax, hl⟩

/-- Exactly one walk leads from `a` to `b`. -/
def OnlyWalk (R : α → α → Prop) (a b : α) : Prop := ∃! l, Walk R a l b

namespace OnlyWalk

theorem not_cycle_start (h : OnlyWalk R a b) : ¬ TransGen R a a := by
  intro hcycle
  obtain ⟨m, hm, hround⟩ := exists_walk_of_transGen hcycle
  obtain ⟨l, hl, honly⟩ := h
  -- once round the cycle first, then on to `b`
  have hlonger : m ++ l = l := honly _ (walk_append.2 ⟨a, hround, hl⟩)
  exact hm (List.append_left_eq_self.1 hlonger)

theorem not_cycle (h : OnlyWalk R a b) : ¬ TransGen R b b := by
  intro hcycle
  obtain ⟨m, hm, hround⟩ := exists_walk_of_transGen hcycle
  obtain ⟨l, hl, honly⟩ := h
  have hlonger : l ++ m = l := honly _ (walk_append.2 ⟨b, hl, hround⟩)
  exact hm (List.append_right_eq_self.1 hlonger)

theorem of_step (h : OnlyWalk R a b) (hx : ReflTransGen R a x) (hxb : R x b) : OnlyWalk R a x := by
  obtain ⟨l, hl⟩ := exists_walk hx
  refine ⟨l, hl, fun m hm => ?_⟩
  exact List.append_cancel_right (h.unique (walk_concat.2 ⟨rfl, x, hm, hxb⟩) (walk_concat.2 ⟨rfl, x, hl, hxb⟩))

theorem eq_of_steps (h : OnlyWalk R a b) (hx : ReflTransGen R a x) (hxb : R x b) (hy : ReflTransGen R a y)
    (hyb : R y b) : x = y := by
  obtain ⟨l, hl⟩ := exists_walk hx
  obtain ⟨m, hm⟩ := exists_walk hy
  have hsame : l ++ [b] = m ++ [b] := h.unique (walk_concat.2 ⟨rfl, x, hl, hxb⟩) (walk_concat.2 ⟨rfl, y, hm, hyb⟩)
  obtain rfl := List.append_cancel_right hsame
  exact hl.end_eq hm

end OnlyWalk

theorem onlyWalk_refl (ha : ¬ TransGen R a a) : OnlyWalk R a a := by
  refine ⟨[], rfl, fun m hm => ?_⟩
  by_contra hne
  exact ha (hm.transGen hne)

theorem OnlyWalk.step (h : OnlyWalk R a x) (hxb : R x b) (hsteps : ∀ y, ReflTransGen R a y → R y b → y = x) :
    OnlyWalk R a b := by
  obtain ⟨l, hl, honly⟩ := id h
  refine ⟨l ++ [b], walk_concat.2 ⟨rfl, x, hl, hxb⟩, fun m hm => ?_⟩
  obtain rfl | ⟨m, b', rfl⟩ := m.eq_nil_or_concat'
  · obtain rfl : a = b := hm
    exact absurd (.tail' hl.reflTransGen hxb) h.not_cycle_start
  · obtain ⟨rfl, y, hm, hyb⟩ := walk_concat.1 hm
    obtain rfl := hsteps y hm.reflTransGen hyb
    rw [honly m hm]

theorem onlyWalk_of_steps (ha : ¬ TransGen R a a)
    (honly : ∀ b, TransGen R a b → ∃! x, R x b ∧ ReflTransGen R a x) (hb : ReflTransGen R a b) :
    OnlyWalk R a b := by
  induction hb with
  | refl => exact onlyWalk_refl ha
  | @tail b c hab hbc ih =>
    exact ih.step hbc fun y hy hyc => (honly c (.tail' hab hbc)).unique ⟨hyc, hy⟩ ⟨hbc, hab⟩

end Spreadsheet
