import Spreadsheet.Proofs.Sheet.Marks

/-!
# What a pass computes

After an edit a pass goes over the cells that the change reaches. In topological mode those on cycles are
marked and reported, and the others are computed in the order of the plan, each once
(`Mirrored.passedInOrder`). As the cells that are reached are closed under edges, their cycles are the cycles of
the whole graph among them. In depth-first mode all of them are computed as they are met, each once, except the
edited cell, which is not computed again (`Mirrored.passedAsMet`). All have a formula, since edges enter no
other cells, so the number that is reported counts them. Each takes the value of its formula over what the
cells before it left (`Store.ComputedOnce.exists_turn`).
-/

namespace Spreadsheet
open Relation

namespace Sheet
variable {s : Sheet} {op : Op} {r x : Ref} {input : String}

/-- The cells that a change of `r` reaches. -/
def Reached (s : Sheet) (r : Ref) : Set Ref := {x | TransGen s.graph.Edge r x}

/-- The plan for these cells. -/
def planFor (s : Sheet) (r : Ref) : Plan := s.graph.plan (s.graph.affected r)

/-- A pass in topological mode has led from `s` to `t` after a change of `r`. -/
structure PassedInOrder (s : Sheet) (r : Ref) (report : Report) (t : Sheet) : Prop where
  graph : t.graph = s.graph
  /-- The cycles may be any of the whole graph. -/
  cycles : ∀ x, x ∈ report.cycles ↔ x ∈ s.Reached r ∧ TransGen s.graph.Edge x x
  sorted : report.cycles.Pairwise (· < ·)
  /-- Once the cells on cycles are marked, the others are computed. -/
  computed : (s.marked (s.planFor r)).ComputedOnce t.cells (s.planFor r).order
    {x ∈ s.Reached r | ¬ TransGen s.graph.Edge x x}
  count : (s.Reached r).encard = report.recomputed + report.cycles.length

/-- A pass in depth-first mode has led from `s` to `t` after a change of `r`. -/
structure PassedAsMet (s : Sheet) (r : Ref) (report : Report) (t : Sheet) : Prop where
  graph : t.graph = s.graph
  cycles : report.cycles = []
  computed : s.cells.ComputedOnce t.cells (s.graph.visits r) (s.Reached r \ {r})
  count : (s.Reached r \ {r}).encard = report.recomputed

namespace Mirrored

theorem planned_planFor (h : s.Mirrored) (r : Ref) : s.graph.Planned (s.graph.affected r) (s.planFor r) :=
  h.planned _

theorem mem_order_planFor (h : s.Mirrored) :
    x ∈ (s.planFor r).order ↔ x ∈ s.Reached r ∧ ¬ TransGen s.graph.Edge x x :=
  h.wellFormed.mem_order_affected

theorem mem_cycles_planFor (h : s.Mirrored) :
    x ∈ (s.planFor r).cycles ↔ x ∈ s.Reached r ∧ TransGen s.graph.Edge x x :=
  h.wellFormed.mem_cycles_affected

theorem mem_visits (h : s.Mirrored) : x ∈ s.graph.visits r ↔ x ∈ s.Reached r \ {r} := h.wellFormed.mem_visits

theorem formula?_of_reached (h : s.Mirrored) (hx : x ∈ s.Reached r) : ∃ f, s.cells.formula? x = some f := by
  obtain ⟨a, -, hax⟩ := TransGen.tail'_iff.1 hx
  exact ((h.edge a x).1 hax).formula?

/-! ### In topological mode -/

theorem report_propagate_of_topological (h : s.Mirrored) (hmode : s.mode = .topological) (r : Ref) :
    (s.propagate r).1 =
      ⟨(s.planFor r).order.length, (s.planFor r).cycles, (s.planFor r).cycles.head?.bind s.graph.loop?⟩ := by
  rw [propagate_of_topological hmode]
  exact h.report_follow (h.planned_planFor r) fun x hx => h.formula?_of_reached (h.mem_order_planFor.1 hx).1

theorem passedInOrder (h : s.Mirrored) (hmode : s.mode = .topological) (r : Ref) :
    s.PassedInOrder r (s.propagate r).1 (s.propagate r).2 where
  graph := graph_propagate r
  cycles x := by
    rw [h.report_propagate_of_topological hmode]
    exact h.mem_cycles_planFor
  sorted := by
    rw [h.report_propagate_of_topological hmode]
    exact (h.planned_planFor r).sorted
  computed := by
    have hp := h.planned_planFor r
    refine ⟨?_, hp.nodup, fun x => h.mem_order_planFor⟩
    rw [propagate_of_topological hmode, cells_follow]
    refine Store.computes_recomputeAll fun x hx => ?_
    rw [Store.formula?_congr (h.content?_marked hp)]
    exact h.formula?_of_reached (h.mem_order_planFor.1 hx).1
  count := by
    have hp := h.planned_planFor r
    have hnodup := hp.perm.nodup_iff.2 nodup_toList
    rw [h.report_propagate_of_topological hmode, encard_eq_length hnodup fun x => ?_, List.length_append]
    · rfl
    · rw [hp.perm.mem_iff, Std.ExtTreeSet.mem_toList]
      exact h.wellFormed.mem_affected

/-! ### In depth-first mode -/

theorem formula?_of_visits (h : s.Mirrored) (hx : x ∈ s.graph.visits r) : ∃ f, s.cells.formula? x = some f :=
  h.formula?_of_reached (h.mem_visits.1 hx).1

theorem passedAsMet (h : s.Mirrored) (hmode : s.mode = .depthFirst) (r : Ref) :
    s.PassedAsMet r (s.propagate r).1 (s.propagate r).2 where
  graph := graph_propagate r
  cycles := by rw [propagate_of_depthFirst hmode]
  computed := by
    rw [propagate_of_depthFirst hmode]
    exact ⟨Store.computes_recomputeAll fun x => h.formula?_of_visits, Graph.nodup_visits, fun x => h.mem_visits⟩
  count := by
    rw [propagate_of_depthFirst hmode, Store.recomputed_of_formula fun x => h.formula?_of_visits]
    exact encard_eq_length Graph.nodup_visits fun x => h.mem_visits

end Mirrored

/-- At any moment of a session, an edit computes each formula cell that it reaches once, but for the cells on
cycles in topological mode and the edited cell in depth-first mode, and reports how many. -/
theorem computedOnce_of_edit (h : s.InSession) (hop : op.input? = some (r, input)) :
    ∃ report, s.report? op = some report ∧
      (s.mode = .topological → (s.put r input).PassedInOrder r report (s.apply op)) ∧
      (s.mode = .depthFirst → (s.put r input).PassedAsMet r report (s.apply op)) := by
  obtain ⟨hreport, happly⟩ := report?_of_input? (s := s) hop
  rw [happly]
  exact ⟨_, hreport, fun hmode => h.mirrored.put.passedInOrder (mode_put.trans hmode) r,
    fun hmode => h.mirrored.put.passedAsMet (mode_put.trans hmode) r⟩

/-- An edit of `A1`, which is on no cycle and reaches the one of `C1` and `D1`, with `E1` behind it. -/
theorem computedOnce_of_edit_before_cycle :
    let s := (Sheet.empty .topological).after [.set ⟨0, 0⟩ "1", .set ⟨0, 1⟩ "=A1+1", .set ⟨0, 2⟩ "=A1+D1",
      .set ⟨0, 3⟩ "=C1", .set ⟨0, 4⟩ "=D1"]
    let t := { s with mode := .depthFirst }
    (∃ report, s.report? (.setNamed "A1" "5") = some report ∧
        (s.put ⟨0, 0⟩ "5").PassedInOrder ⟨0, 0⟩ report (s.apply (.setNamed "A1" "5"))) ∧
      ∃ report, t.report? (.setNamed "A1" "5") = some report ∧
        (t.put ⟨0, 0⟩ "5").PassedAsMet ⟨0, 0⟩ report (t.apply (.setNamed "A1" "5")) := by
  intro s t
  have hs : s.InSession := .after (.empty _) _
  have hop : (Op.setNamed "A1" "5").input? = some (⟨0, 0⟩, "5") := by decide +kernel
  obtain ⟨report, hreport, hpassed, -⟩ := computedOnce_of_edit hs hop
  obtain ⟨report', hreport', -, hpassed'⟩ := computedOnce_of_edit (hs.assign .depthFirst s.path s.modified) hop
  exact ⟨⟨report, hreport, hpassed (by decide +kernel)⟩, report', hreport', hpassed' rfl⟩

end Sheet

end Spreadsheet
