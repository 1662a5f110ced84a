import Spreadsheet.Proofs.Graph.Plan

/-!
# What a change visits

`visits` lists the cells that the walk from a changed cell meets, in the order of meeting. Each cell that can
be reached is met once, but for the changed one (`nodup_visits`, `WellFormed.mem_visits`), and it is met from
the changed cell or from a cell met before it (`exists_edge_of_visits`). The plan for what can be reached holds
each of these cells once as well. It is closed under edges, so the cycles that the plan finds are all the cycles
of the graph that can be reached (`WellFormed.mem_cycles_affected`).
-/

namespace Spreadsheet
open Relation

namespace Graph
variable {g : Graph} {todo unmet before behind : List Ref} {r x start : Ref}

/-- The cells that the walk from a cell meets, in this order. The cell itself counts as met. -/
def visits (g : Graph) (start : Ref) : List Ref := g.discover [start] (g.formulaCells.erase start)

theorem mem_unmet_of_mem_discover (h : x ∈ g.discover todo unmet) : x ∈ unmet := by
  obtain ⟨a, -, hpath⟩ := mem_discover.1 h
  obtain ⟨b, -, hbx⟩ := TransGen.tail'_iff.1 hpath
  exact hbx.2

theorem nodup_discover (h : unmet.Nodup) : (g.discover todo unmet).Nodup := by
  fun_induction discover g todo unmet with
  | case1 => exact List.nodup_nil
  | case2 r todo unmet met ih =>
    refine List.nodup_append'.2 ⟨h.filter _, ih (h.filter _), fun x hx hlater => ?_⟩
    have hother := mem_othersIn.1 (mem_unmet_of_mem_discover hlater)
    exact hother.2 (mem_dependentsIn.1 hx).1

/-- A cell is met from a cell to do or from one that was met before. -/
theorem exists_edge_of_discover (h : g.discover todo unmet = before ++ x :: behind) :
    ∃ p, g.Edge p x ∧ (p ∈ todo ∨ p ∈ before) := by
  fun_induction discover g todo unmet generalizing before with
  | case1 => simp at h
  | case2 r todo unmet met =>
    rename_i ih
    by_cases hx : x ∈ met
    · exact ⟨r, (mem_dependentsIn.1 hx).1, .inl List.mem_cons_self⟩
    · -- what is met at once comes before `x`, which is met later
      obtain ⟨between, rfl, hrest⟩ : ∃ between, before = met ++ between ∧
          g.discover (met.reverse ++ todo) (g.othersIn r unmet) = between ++ x :: behind := by
        rcases List.append_eq_append_iff.1 h with ⟨between, hbefore, hrest⟩ | ⟨between, hmet, hrest⟩
        · exact ⟨between, hbefore, hrest⟩
        · cases between with
          | nil => exact ⟨[], by simpa using hmet.symm, by simpa using hrest.symm⟩
          | cons y between =>
            obtain ⟨rfl, -⟩ := List.cons.inj hrest
            exact absurd (hmet ▸ by simp) hx
      obtain ⟨p, hpx, hp⟩ := ih hrest
      refine ⟨p, hpx, ?_⟩
      rw [List.mem_append, List.mem_reverse] at hp
      rw [List.mem_cons, List.mem_append]
      tauto

theorem nodup_visits : (g.visits start).Nodup := nodup_discover (nodup_formulaCells.erase start)

theorem WellFormed.mem_visits (h : g.WellFormed) : x ∈ g.visits start ↔ TransGen g.Edge start x ∧ x ≠ start := by
  rw [visits, mem_discover, Met]
  constructor
  · rintro ⟨a, ha, hpath⟩
    obtain rfl := List.mem_singleton.1 ha
    obtain ⟨b, -, hbx⟩ := TransGen.tail'_iff.1 hpath
    exact ⟨TransGen.mono (fun _ _ => And.left) _ _ hpath, (nodup_formulaCells.mem_erase_iff.1 hbx.2).1⟩
  · rintro ⟨hpath, hne⟩
    refine ⟨start, List.mem_singleton_self start, transGen_of_agree (fun a b hb hab => ?_) hne hpath⟩
    exact ⟨hab, (List.mem_erase_of_ne hb).2 (h.mem_formulaCells hab)⟩

theorem exists_edge_of_visits (h : g.visits start = before ++ x :: behind) :
    ∃ p, g.Edge p x ∧ (p = start ∨ p ∈ before) := by
  obtain ⟨p, hpx, hp⟩ := exists_edge_of_discover h
  exact ⟨p, hpx, hp.imp_left List.mem_singleton.1⟩

/-! ### The plan for what can be reached -/

namespace WellFormed

theorem mem_cycles_affected (h : g.WellFormed) :
    x ∈ (g.plan (g.affected start)).cycles ↔ TransGen g.Edge start x ∧ TransGen g.Edge x x := by
  rw [(h.plan_spec _).cycles]
  constructor
  · intro hcycle
    exact ⟨h.mem_affected.1 (mem_of_transGen_inside hcycle).1, transGen_of_inside hcycle⟩
  · rintro ⟨hx, hcycle⟩
    exact transGen_inside_of_closed (fun _ _ => h.affected_closed) (h.mem_affected.2 hx) hcycle

theorem mem_order_affected (h : g.WellFormed) :
    x ∈ (g.plan (g.affected start)).order ↔ TransGen g.Edge start x ∧ ¬ TransGen g.Edge x x := by
  have hp := h.plan_spec (g.affected start)
  have hmem : TransGen g.Edge start x ↔ _ := h.mem_affected.symm.trans (hp.mem x)
  rw [hmem]
  constructor
  · intro hx
    refine ⟨.inl hx, fun hcycle => hp.disjoint x hx (h.mem_cycles_affected.2 ⟨hmem.2 (.inl hx), hcycle⟩)⟩
  · rintro ⟨hx, hno⟩
    exact hx.resolve_right fun hcycles => hno (h.mem_cycles_affected.1 hcycles).2

end WellFormed

end Graph

end Spreadsheet
