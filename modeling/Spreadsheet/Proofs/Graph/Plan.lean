import Spreadsheet.Graph.Plan
import Spreadsheet.Proofs.Graph.Reach

/-!
# What a plan orders

`Taken` describes a round of `takeReady`: the cells taken come with their precedents first, and the cells
left over are the greatest set in which each cell has a precedent (`Taken.greatest`, `Taken.stuck`). So all
cycles of the set are left over, and once their members are cut out nothing is left over in the second
round, for a finite set in which each cell has a precedent holds a cycle. `plan_spec` puts the two rounds
together.
-/

namespace Spreadsheet
open Relation

namespace Graph
variable {g : Graph} {todo left cells : RefSet} {order : List Ref} {r : Ref}

theorem WellFormed.isBlocked_iff (h : g.WellFormed) : g.isBlocked todo r ↔ ∃ p ∈ todo, g.Edge p r := by
  simp only [isBlocked, List.any_eq_true, Std.ExtTreeSet.mem_toList, decide_eq_true_iff, Edge]
  constructor
  · rintro ⟨p, hp, hpt⟩
    exact ⟨p, hpt, (h.mirror p r).2 hp⟩
  · rintro ⟨p, hpt, hp⟩
    exact ⟨p, (h.mirror p r).1 hp, hpt⟩

/-! ### One round -/

/-- A round over the cells to do: what it takes, in order, and what it leaves. -/
structure Taken (g : Graph) (todo : RefSet) (order : List Ref) (left : RefSet) : Prop where
  mem : ∀ r, r ∈ todo ↔ r ∈ order ∨ r ∈ left
  disjoint : ∀ r ∈ order, r ∉ left
  nodup : order.Nodup
  first : PrecedentsFirst g.Edge order
  /-- No cell that is taken has a precedent that is left. -/
  apart : ∀ r ∈ order, ∀ p ∈ left, ¬ g.Edge p r
  stuck : ∀ r ∈ left, ∃ p ∈ left, g.Edge p r
  greatest : ∀ S : Set Ref, (∀ r ∈ S, r ∈ todo ∧ ∃ p ∈ S, g.Edge p r) → ∀ r ∈ S, r ∈ left

theorem Taken.nil (h : ∀ r ∈ todo, ∃ p ∈ todo, g.Edge p r) : g.Taken todo [] todo where
  mem r := by simp
  disjoint r hr := by simp at hr
  nodup := List.nodup_nil
  first := trivial
  apart r hr := by simp at hr
  stuck := h
  greatest S hS r hr := (hS r hr).1

theorem Taken.cons (hr : r ∈ todo) (hready : ∀ p ∈ todo, ¬ g.Edge p r)
    (h : g.Taken (todo.erase r) order left) : g.Taken todo (r :: order) left := by
  have hsub : ∀ x, x ∈ order ∨ x ∈ left → x ∈ todo ∧ x ≠ r := fun x hx => mem_erase.1 ((h.mem x).2 hx)
  refine ⟨fun x => ?_, ?_, ?_, ⟨?_, h.first⟩, ?_, h.stuck, fun S hS x hx => ?_⟩
  · rw [List.mem_cons, or_assoc, ← h.mem, mem_erase]
    by_cases hx : x = r
    · simp [hx, hr]
    · simp [hx]
  · intro x hx hleft
    rcases List.mem_cons.1 hx with rfl | hx
    · exact (hsub x (.inr hleft)).2 rfl
    · exact h.disjoint x hx hleft
  · exact List.nodup_cons.2 ⟨fun hx => (hsub r (.inl hx)).2 rfl, h.nodup⟩
  · intro p hp
    rcases List.mem_cons.1 hp with rfl | hp
    · exact hready p hr
    · exact hready p (hsub p (.inl hp)).1
  · intro x hx p hp
    rcases List.mem_cons.1 hx with rfl | hx
    · exact hready p (hsub p (.inr hp)).1
    · exact h.apart x hx p hp
  · refine h.greatest S (fun y hy => ⟨mem_erase.2 ⟨(hS y hy).1, ?_⟩, (hS y hy).2⟩) x hx
    rintro rfl
    obtain ⟨p, hp, hpy⟩ := (hS y hy).2
    exact hready p (hS p hp).1 hpy

/-- The next cell of a round is one of those to do, and none of these precedes it. -/
theorem WellFormed.ready_of_find? (h : g.WellFormed)
    (hfind : todo.toList.find? (!g.isBlocked todo ·) = some r) : r ∈ todo ∧ ∀ p ∈ todo, ¬ g.Edge p r := by
  refine ⟨Std.ExtTreeSet.mem_toList.1 (List.mem_of_find?_eq_some hfind), fun p hp hpr => ?_⟩
  have hready : ¬ g.isBlocked todo r := by simpa using List.find?_some hfind
  exact hready (h.isBlocked_iff.2 ⟨p, hp, hpr⟩)

theorem WellFormed.takeReady_spec (h : g.WellFormed) (todo : RefSet) :
    g.Taken todo (g.takeReady todo).1 (g.takeReady todo).2 := by
  fun_induction takeReady g todo with
  | case1 todo r hfind order left hrest ih =>
    obtain ⟨hr, hready⟩ := h.ready_of_find? hfind
    rw [hrest] at ih
    exact .cons hr hready ih
  | case2 todo hfind =>
    refine .nil fun r hr => h.isBlocked_iff.1 ?_
    simpa using List.find?_eq_none.1 hfind r (Std.ExtTreeSet.mem_toList.2 hr)

theorem Taken.mem_left_of_cycle (h : g.Taken todo order left)
    (hcycle : TransGen (Inside g.Edge {x | x ∈ todo}) r r) : r ∈ left := by
  refine h.greatest {x | TransGen (Inside g.Edge {x | x ∈ todo}) x x} (fun x hx => ?_) r hcycle
  obtain ⟨p, hp, hpx⟩ := exists_pred_of_cycle hx
  exact ⟨(mem_of_transGen_inside hx).1, p, hp, hpx.step⟩

theorem Taken.left_eq_empty (h : g.Taken todo order left)
    (hno : ∀ r ∈ left, ¬ TransGen (Inside g.Edge {x | x ∈ left}) r r) : left = ∅ := by
  refine Std.ExtTreeSet.eq_empty_iff_forall_not_mem.2 fun r hr => ?_
  have hfin : {x | x ∈ left}.Finite := (List.finite_toSet left.toList).subset fun x hx =>
    Std.ExtTreeSet.mem_toList.2 hx
  obtain ⟨x, hx, hcycle⟩ := exists_cycle_inside hfin ⟨r, hr⟩ h.stuck
  exact hno x hx hcycle

/-! ### The plan -/

/-- A plan orders the cells that lie on no cycle inside the set, precedents first, and lists the others. -/
structure Planned (g : Graph) (cells : RefSet) (plan : Plan) : Prop where
  mem : ∀ r, r ∈ cells ↔ r ∈ plan.order ∨ r ∈ plan.cycles
  disjoint : ∀ r ∈ plan.order, r ∉ plan.cycles
  nodup : plan.order.Nodup
  first : PrecedentsFirst g.Edge plan.order
  cycles : ∀ r, r ∈ plan.cycles ↔ TransGen (Inside g.Edge {x | x ∈ cells}) r r
  sorted : plan.cycles.Pairwise (· < ·)

theorem Planned.nodup_cycles {plan : Plan} (h : g.Planned cells plan) : plan.cycles.Nodup :=
  h.sorted.imp fun hlt heq => by
    subst heq
    cases Std.ReflCmp.compare_self.symm.trans hlt

theorem Planned.perm {plan : Plan} (h : g.Planned cells plan) :
    (plan.order ++ plan.cycles).Perm cells.toList := by
  have hnodup := List.nodup_append'.2 ⟨h.nodup, h.nodup_cycles, h.disjoint⟩
  refine (List.perm_ext_iff_of_nodup hnodup nodup_toList).2 fun r => ?_
  rw [List.mem_append, Std.ExtTreeSet.mem_toList, h.mem]

/-- The cells found on cycles among the cells left over are those on cycles of the whole set. -/
theorem Taken.onCycleIn_left_iff (h : g.Taken cells order left) :
    r ∈ left.toList.filter (g.onCycleIn left) ↔ TransGen (Inside g.Edge {x | x ∈ cells}) r r := by
  have hsub : {x | x ∈ left} ⊆ {x | x ∈ cells} := fun x hx => (h.mem x).2 (.inr hx)
  rw [List.mem_filter, Std.ExtTreeSet.mem_toList]
  constructor
  · rintro ⟨hr, hcycle⟩
    exact transGen_inside_mono hsub ((onCycleIn_iff hr).1 hcycle)
  · intro hcycle
    have hr := h.mem_left_of_cycle hcycle
    refine ⟨hr, (onCycleIn_iff hr).2 ?_⟩
    refine TransGen.mono (fun a b hab => ?_) _ _ (transGen_inside_cycles hcycle)
    exact ⟨h.mem_left_of_cycle hab.1, h.mem_left_of_cycle hab.2.1, hab.step.step⟩

section Rounds
variable {behind left' : RefSet} {order' cycles : List Ref}

/-- Once the cells on cycles are cut out, a second round leaves nothing. -/
theorem Taken.left_eq_empty_of_cut (hfirst : g.Taken cells order left) (hsecond : g.Taken behind order' left')
    (hcycles : ∀ r, r ∈ cycles ↔ TransGen (Inside g.Edge {x | x ∈ cells}) r r)
    (hbehind : ∀ r, r ∈ behind ↔ r ∈ left ∧ r ∉ cycles) : left' = ∅ := by
  have hleft : ∀ r ∈ left', r ∈ left ∧ r ∉ cycles := fun r hr => (hbehind r).1 ((hsecond.mem r).2 (.inr hr))
  refine hsecond.left_eq_empty fun r hr hcycle => ?_
  refine (hleft r hr).2 ((hcycles r).2 (transGen_inside_mono (fun x hx => ?_) hcycle))
  exact (hfirst.mem x).2 (.inr (hleft x hx).1)

/-- Two rounds make a plan: the second one orders all that the first one left and that is on no cycle. -/
theorem Planned.of_rounds
    (hfirst : g.Taken cells order left) (hsecond : g.Taken behind order' left')
    (hcycles : ∀ r, r ∈ cycles ↔ TransGen (Inside g.Edge {x | x ∈ cells}) r r)
    (hbehind : ∀ r, r ∈ behind ↔ r ∈ left ∧ r ∉ cycles) (hsorted : cycles.Pairwise (· < ·)) :
    g.Planned cells ⟨order ++ order', cycles⟩ := by
  have horder : ∀ r ∈ order', r ∈ left ∧ r ∉ cycles := fun r hr =>
    (hbehind r).1 ((hsecond.mem r).2 (.inl hr))
  have hnothing : left' = ∅ := hfirst.left_eq_empty_of_cut hsecond hcycles hbehind
  have hcycle_left : ∀ r ∈ cycles, r ∈ left := fun r hr => hfirst.mem_left_of_cycle ((hcycles r).1 hr)
  refine ⟨fun r => ?_, fun r hr => ?_, ?_, ?_, hcycles, hsorted⟩
  · have hbehind' : r ∈ order' ↔ r ∈ left ∧ r ∉ cycles := by
      rw [← hbehind r, hsecond.mem r, hnothing]
      simp
    show r ∈ cells ↔ r ∈ order ++ order' ∨ r ∈ cycles
    rw [hfirst.mem r, List.mem_append, hbehind', or_assoc]
    by_cases hr : r ∈ cycles
    · simp [hr, hcycle_left r hr]
    · simp [hr]
  · rcases List.mem_append.1 hr with hr | hr
    · exact fun hcycle => hfirst.disjoint r hr (hcycle_left r hcycle)
    · exact (horder r hr).2
  · refine List.nodup_append'.2 ⟨hfirst.nodup, hsecond.nodup, fun r hr hr' => ?_⟩
    exact hfirst.disjoint r hr (horder r hr').1
  · exact hfirst.first.append hsecond.first fun r hr p hp => hfirst.apart r hr p (horder p hp).1

theorem mem_behind :
    r ∈ (Std.ExtTreeSet.ofList (left.toList.filter (!cycles.contains ·)) : RefSet) ↔ r ∈ left ∧ r ∉ cycles := by
  rw [Std.ExtTreeSet.mem_ofList, List.contains_iff_mem, List.mem_filter, Std.ExtTreeSet.mem_toList,
    Bool.not_eq_true', ← Bool.not_eq_true, List.contains_iff_mem]

end Rounds

theorem WellFormed.plan_spec (h : g.WellFormed) (cells : RefSet) : g.Planned cells (g.plan cells) := by
  have hfirst := h.takeReady_spec cells
  exact .of_rounds hfirst (h.takeReady_spec _) (fun _ => hfirst.onCycleIn_left_iff) (fun _ => mem_behind)
    ((Std.ExtTreeSet.ordered_toList).filter _)

end Graph

end Spreadsheet
