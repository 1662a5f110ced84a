import Spreadsheet.Proofs.Sheet.Run
import Spreadsheet.Proofs.Store.Settled

/-!
# Recalculation settles

A plan for a closed set of cells settles all of them (`Mirrored.settledAt_follow`). A full recalculation
plans for all formula cells, so it settles the sheet from any state. An edit in topological mode plans for
what it reaches, and keeps a settled sheet settled (`Mirrored.settled_set`): a cell that it does not reach
reads nothing that changes and lies on the same cycles as before, and the edited cell was computed over
the cells from before, none of which changes if it does not reach itself. `Quiet` is the one condition on
a run: a cell that is created without a recalculation is mentioned by no formula.
-/

namespace Spreadsheet
open Relation

namespace Sheet
variable {s t : Sheet} {op : Op} {ops : List Op} {r x a b : Ref} {input f : String}
variable {plan : Plan} {cells : RefSet}

/-! ### Following a plan -/

theorem cells_follow : (s.follow plan).2.cells = ((s.marked plan).recomputeAll plan.order).2 := rfl

theorem values_marked (hr : r ∈ plan.cycles) (hf : s.cells.formula? r = some f) :
    (s.marked plan).values r = some (.error .cyclicDependency) := by
  obtain ⟨c, hc, -⟩ := Option.bind_eq_some_iff.1 hf
  rw [marked, Store.values, Store.getElem?_foldl_replaceValue, if_pos hr, hc]
  rfl

theorem getElem?_follow_of_notMem (hp : s.graph.Planned cells plan) (hr : r ∉ cells) :
    (s.follow plan).2.cells[r]? = s.cells[r]? := by
  obtain ⟨horder, hcycles⟩ := not_or.1 (mt (hp.mem r).2 hr)
  rw [cells_follow, Store.getElem?_recomputeAll_of_notMem horder, marked, Store.getElem?_foldl_replaceValue,
    if_neg hcycles]

namespace Mirrored

/-- Where all cells in the order of the plan have a formula, all are counted. -/
theorem report_follow (h : s.Mirrored) (hp : s.graph.Planned cells plan)
    (hformula : ∀ r ∈ plan.order, ∃ f, s.cells.formula? r = some f) :
    (s.follow plan).1 = ⟨plan.order.length, plan.cycles, plan.cycles.head?.bind s.graph.loop?⟩ := by
  have hcount : ((s.marked plan).recomputeAll plan.order).1 = plan.order.length :=
    Store.recomputed_of_formula (Store.formula?_congr (h.content?_marked hp) ▸ hformula)
  exact congrArg (Report.mk · _ _) hcount

/-- All cells of a closed set are settled by its plan, whatever they held. -/
theorem settledAt_follow (h : s.Mirrored) (hp : s.graph.Planned cells plan)
    (hclosed : ∀ a b, a ∈ cells → s.graph.Edge a b → b ∈ cells) (hr : r ∈ cells) :
    (s.follow plan).2.cells.SettledAt s.graph.Edge r := by
  have hformula := Store.formula?_congr (h.content?_follow hp)
  have hmarked := Store.formula?_congr (h.content?_marked hp)
  have hcycle : r ∈ plan.cycles ↔ TransGen s.graph.Edge r r := by
    rw [hp.cycles]
    exact ⟨transGen_of_inside, transGen_inside_of_closed hclosed hr⟩
  refine .of (fun hrr => ?_) fun f hf hno => ?_
  · have hmem := hcycle.2 hrr
    obtain ⟨f, hf⟩ := h.formula?_of_cycle hp hmem
    have hnot : r ∉ plan.order := fun horder => hp.disjoint r horder hmem
    rw [cells_follow, Store.values_recomputeAll_of_notMem hnot]
    exact values_marked hmem hf
  · have hmem := ((hp.mem r).1 hr).resolve_right (mt hcycle.1 hno)
    rw [cells_follow]
    refine Store.values_recomputeAll ?_ hmem ?_
    · rw [Store.feeds_congr hmarked, ← h.edge_eq]
      exact hp.first
    · rw [hmarked, ← hformula]
      exact hf

theorem formulaSet_closed (h : s.Mirrored) (hab : s.graph.Edge a b) : b ∈ s.formulaSet :=
  mem_formulaSet.2 ((h.edge a b).1 hab).formula?

theorem settled_recalculate (h : s.Mirrored) : s.recalculate.2.cells.Settled s.recalculate.2.graph.Edge := by
  intro r
  by_cases hr : r ∈ s.formulaSet
  · exact h.settledAt_follow (h.planned _) (fun _ _ _ => h.formulaSet_closed) hr
  · refine .of_literal ?_
    rw [Store.formula?_congr h.content?_recalculate]
    exact Option.eq_none_iff_forall_ne_some.2 fun f hf => hr (mem_formulaSet.2 ⟨f, hf⟩)

/-- The contents determine the cells of a settled sheet. -/
theorem cells_congr (h : s.Mirrored) (h' : t.Mirrored) (hs : s.cells.Settled s.graph.Edge)
    (ht : t.cells.Settled t.graph.Edge) (he : s.cells.content? = t.cells.content?) : s.cells = t.cells := by
  rw [h.edge_eq] at hs
  rw [h'.edge_eq] at ht
  exact hs.eq ht he

theorem recalculate_of_settled (h : s.Mirrored) (hs : s.cells.Settled s.graph.Edge) :
    s.recalculate.2 = s := by
  have hcells := h.recalculate.cells_congr h h.settled_recalculate hs h.content?_recalculate
  show { s with cells := s.recalculate.2.cells } = s
  rw [hcells]

/-! ### An edit in topological mode -/

theorem edge_put (h : s.Mirrored) (hb : b ≠ r) : s.graph.Edge a b ↔ (s.put r input).graph.Edge a b := by
  rw [graph_put, Graph.edge_setPrecedents h.wellFormed, if_neg hb]

/-- What an unaffected cell reads is unaffected too, and is not the cell that changed. -/
theorem unaffected_of_feeds (h : s.Mirrored) (hx : x ∉ s.graph.affected r) (hax : s.cells.Feeds a x) :
    a ∉ s.graph.affected r ∧ a ≠ r := by
  have hedge := (h.edge a x).2 hax
  refine ⟨fun ha => hx (h.wellFormed.affected_closed ha hedge), ?_⟩
  rintro rfl
  exact hx (h.wellFormed.mem_affected.2 (.single hedge))

theorem getElem?_set_of_unaffected (h : s.Mirrored) (htop : s.mode = .topological)
    (hx : x ∉ (s.put r input).graph.affected r) :
    (s.set r input).2.cells[x]? = (s.put r input).cells[x]? := by
  rw [set_of_topological htop]
  exact getElem?_follow_of_notMem (h.put.planned _) hx

/-- What an unaffected cell reads is as it was before the edit. -/
theorem values_set_of_feeds (h : s.Mirrored) (htop : s.mode = .topological)
    (hx : x ∉ (s.put r input).graph.affected r) (hax : (s.put r input).cells.Feeds a x) :
    (s.set r input).2.cells.values a = s.cells.values a := by
  obtain ⟨ha, har⟩ := h.put.unaffected_of_feeds hx hax
  rw [Store.values, Store.values, h.getElem?_set_of_unaffected htop ha, getElem?_put_of_ne (Ne.symm har)]

theorem settledAt_set_of_affected (h : s.Mirrored) (htop : s.mode = .topological)
    (hx : x ∈ (s.put r input).graph.affected r) :
    (s.set r input).2.cells.SettledAt (s.put r input).graph.Edge x := by
  rw [set_of_topological htop]
  exact h.put.settledAt_follow (h.put.planned _) (fun _ _ => h.put.wellFormed.affected_closed) hx

theorem settledAt_set_self (h : s.Mirrored) (htop : s.mode = .topological)
    (hr : r ∉ (s.put r input).graph.affected r) :
    (s.set r input).2.cells.SettledAt (s.put r input).graph.Edge r := by
  refine .of (fun hrr => absurd (h.put.wellFormed.mem_affected.2 hrr) hr) fun f hf _ => ?_
  rw [h.formula?_set] at hf
  have hread : ∀ a ∈ Formula.references f, (s.set r input).2.cells.values a = s.cells.values a :=
    fun a ha => h.values_set_of_feeds htop hr ⟨f, hf, ha⟩
  rw [Store.values, h.getElem?_set_of_unaffected htop hr, Formula.value_congr hread]
  exact values_put_of_formula? hf

theorem settledAt_set_of_unaffected (h : s.Mirrored) (htop : s.mode = .topological)
    (hs : s.cells.SettledAt s.graph.Edge x) (hx : x ∉ (s.put r input).graph.affected r) (hxr : r ≠ x) :
    (s.set r input).2.cells.SettledAt (s.put r input).graph.Edge x := by
  have hno : ¬ TransGen (s.put r input).graph.Edge r x := mt h.put.wellFormed.mem_affected.2 hx
  refine hs.congr (cycle_iff_of_unreached (fun _ _ => h.edge_put) (Ne.symm hxr) hno) ?_ ?_ fun a hax => ?_
  · rw [h.formula?_set, formula?_put, if_neg hxr]
  · rw [Store.values, Store.values, h.getElem?_set_of_unaffected htop hx, getElem?_put_of_ne hxr]
  · exact h.values_set_of_feeds htop hx (feeds_put.2 (by rwa [if_neg (Ne.symm hxr)]))

theorem settled_set (h : s.Mirrored) (htop : s.mode = .topological) (hs : s.cells.Settled s.graph.Edge) :
    (s.set r input).2.cells.Settled (s.set r input).2.graph.Edge := by
  rw [graph_set]
  intro x
  by_cases hx : x ∈ (s.put r input).graph.affected r
  · exact h.settledAt_set_of_affected htop hx
  · by_cases hxr : r = x
    · subst hxr
      exact h.settledAt_set_self htop hx
    · exact h.settledAt_set_of_unaffected htop (hs x) hx hxr

end Mirrored

/-! ### Cells created without a recalculation -/

theorem settled_initAll (hs : s.cells.Settled s.graph.Edge) {literals : List (Ref × String)}
    (hquiet : ∀ p ∈ literals, p.1 ∉ s.cells → ∀ d, ¬ s.cells.Feeds p.1 d) :
    (s.initAll literals).cells.Settled (s.initAll literals).graph.Edge := by
  have hformula := formula?_initAll (s := s) literals
  rw [graph_initAll]
  intro x
  cases hf : s.cells.formula? x with
  | none => exact .of_literal (by rw [hformula, hf])
  | some f =>
    refine (hs x).congr Iff.rfl (congrFun hformula x) ?_ fun a hax => ?_
    · rcases getElem?_initAll (s := s) (x := x) literals with h | ⟨hx, -⟩
      · rw [Store.values, Store.values, h]
      · rw [Store.formula?, Std.ExtTreeMap.getElem?_eq_none hx] at hf
        cases hf
    · rcases getElem?_initAll (s := s) (x := a) literals with h | ⟨ha, literal, hmem, -⟩
      · rw [Store.values, Store.values, h]
      · exact absurd hax (hquiet _ hmem ha x)

/-! ### Runs -/

/-- No cell that the operation creates from a literal is mentioned by a stored formula. -/
def Quiet (s : Sheet) (op : Op) : Prop := ∀ p ∈ op.literals, p.1 ∉ s.cells → ∀ d, ¬ s.cells.Feeds p.1 d

/-- All operations of the run are quiet when their turn comes. -/
def QuietRun (s : Sheet) : List Op → Prop
  | [] => True
  | op :: ops => s.Quiet op ∧ (s.apply op).QuietRun ops

/-- The invariant of quiet runs. In depth-first mode values may be stale. -/
structure Upheld (s : Sheet) : Prop where
  mirrored : s.Mirrored
  settled : s.mode = .topological → s.cells.Settled s.graph.Edge

namespace Upheld

theorem empty (mode : Sheet.Mode) : (Sheet.empty mode).Upheld where
  mirrored := .empty mode
  settled _ r := .of_literal (by simp [Sheet.empty, Store.formula?])

theorem apply (h : s.Upheld) (hquiet : s.Quiet op) : (s.apply op).Upheld where
  mirrored := h.mirrored.apply op
  settled := by
    rcases s.apply_cases op with ⟨r, input, -, happly⟩ | ⟨-, happly⟩ | ⟨-, -, mode, happly⟩ <;> rw [happly]
    · intro htop
      rw [mode_set] at htop
      exact h.mirrored.settled_set htop (h.settled htop)
    · intro htop
      rw [mode_initAll] at htop
      exact settled_initAll (h.settled htop) hquiet
    · intro _
      exact (h.mirrored.assign mode s.path s.modified).settled_recalculate

theorem after (h : s.Upheld) (hquiet : s.QuietRun ops) : (s.after ops).Upheld := by
  induction ops generalizing s with
  | nil => exact h
  | cons op ops ih => exact ih (h.apply hquiet.1) hquiet.2

end Upheld

/-- In topological mode a quiet run leaves the sheet settled, and a recalculation of all formulas would
change nothing. -/
theorem settled_after_quietRun {mode : Sheet.Mode} (h : (Sheet.empty mode).QuietRun ops)
    (htop : ((Sheet.empty mode).after ops).mode = .topological) :
    ((Sheet.empty mode).after ops).cells.Settled ((Sheet.empty mode).after ops).graph.Edge ∧
      ((Sheet.empty mode).after ops).recalculate.2 = (Sheet.empty mode).after ops := by
  have hup := (Upheld.empty mode).after h
  exact ⟨hup.settled htop, hup.mirrored.recalculate_of_settled (hup.settled htop)⟩

/-- A run that starts in depth-first mode, creates a cell that no formula mentions, and closes a cycle. -/
theorem settled_after_quietRun_switch :
    let ops := [.set ⟨0, 0⟩ "=B1", .initNamed "C1" "5", .setMode .topological, .set ⟨0, 1⟩ "=A1+C1"]
    ((Sheet.empty .depthFirst).after ops).cells.Settled ((Sheet.empty .depthFirst).after ops).graph.Edge ∧
      ((Sheet.empty .depthFirst).after ops).recalculate.2 = (Sheet.empty .depthFirst).after ops := by
  refine settled_after_quietRun ⟨nofun, ?_, nofun, nofun, trivial⟩ (by decide +kernel)
  have hliterals : (Op.initNamed "C1" "5").literals = [(⟨0, 2⟩, "5")] := by decide +kernel
  intro p hp _ d hfeeds
  rw [hliterals, List.mem_singleton] at hp
  subst hp
  have hput : ((Sheet.empty .depthFirst).put ⟨0, 0⟩ "=B1").cells.Feeds ⟨0, 2⟩ d := by
    rw [← Store.feeds_congr (Mirrored.empty .depthFirst).formula?_set]
    exact hfeeds
  rw [feeds_put] at hput
  split at hput
  · exact absurd hput (by decide +kernel)
  · obtain ⟨f, hf⟩ := hput.formula?
    simp [Sheet.empty, Store.formula?] at hf

end Sheet

end Spreadsheet
