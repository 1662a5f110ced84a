import Spreadsheet.Proofs.Sheet.Settling

/-!
# The state that a recalculation leaves

A full recalculation brings a sheet to one state, which is a function of the contents of its cells. Equal
contents make equal graphs (`Mirrored.graph_congr`), hence equal plans and reports, and a settled store is
determined by its contents. So neither the mode nor the values that formula cells held before matter
(`Mirrored.recalculate_congr`), and a second recalculation repeats the first one.
-/

namespace Spreadsheet
open Relation

namespace Sheet
variable {s t : Sheet} {r : Ref}

/-- What a full recalculation follows. -/
def fullPlan (s : Sheet) : Plan := s.graph.plan s.formulaSet

theorem formulaSet_congr (hf : s.cells.formula? = t.cells.formula?) : s.formulaSet = t.formulaSet := by
  refine Std.ExtTreeSet.ext_mem fun r => ?_
  rw [mem_formulaSet, mem_formulaSet, hf]

namespace Mirrored

theorem graph_congr (h : s.Mirrored) (h' : t.Mirrored) (hf : s.cells.formula? = t.cells.formula?) :
    s.graph = t.graph := by
  refine h.wellFormed.ext h'.wellFormed fun a b => ?_
  rw [← h.wellFormed.mirror, ← h'.wellFormed.mirror]
  refine (h.edge a b).trans (Iff.trans ?_ (h'.edge a b).symm)
  rw [Store.feeds_congr hf]

/-! ### The report -/

theorem mem_cycles_recalculate (h : s.Mirrored) :
    r ∈ s.recalculate.1.cycles ↔ TransGen s.graph.Edge r r := by
  refine ((h.planned s.formulaSet).cycles r).trans ⟨transGen_of_inside, fun hrr => ?_⟩
  obtain ⟨a, -, har⟩ := exists_pred_of_cycle hrr
  exact transGen_inside_of_closed (fun _ _ _ => h.formulaSet_closed) (h.formulaSet_closed har) hrr

theorem report_recalculate (h : s.Mirrored) :
    s.recalculate.1 =
      ⟨s.fullPlan.order.length, s.fullPlan.cycles, s.fullPlan.cycles.head?.bind s.graph.loop?⟩ := by
  have hp : s.graph.Planned s.formulaSet s.fullPlan := h.planned _
  exact h.report_follow hp fun r hr => mem_formulaSet.1 ((hp.mem r).2 (.inl hr))

theorem count_recalculate (h : s.Mirrored) :
    s.recalculate.1.recomputed + s.recalculate.1.cycles.length =
      s.cells.toList.countP (·.2.hasFormula) := by
  have hperm : (s.fullPlan.order ++ s.fullPlan.cycles).Perm s.cells.formulaCells := by
    refine (h.planned s.formulaSet).perm.trans ?_
    refine (List.perm_ext_iff_of_nodup nodup_toList Store.nodup_formulaCells).2 fun r => ?_
    rw [Std.ExtTreeSet.mem_toList, mem_formulaSet, Store.mem_formulaCells]
  rw [h.report_recalculate, ← Store.length_formulaCells, ← hperm.length_eq, List.length_append]

/-! ### One state for the contents -/

theorem recalculate_congr (h : s.Mirrored) (h' : t.Mirrored) (he : s.cells.content? = t.cells.content?) :
    s.recalculate.1 = t.recalculate.1 ∧ s.recalculate.2.cells = t.recalculate.2.cells := by
  have hf := Store.formula?_congr he
  have hg : s.graph = t.graph := h.graph_congr h' hf
  constructor
  · rw [h.report_recalculate, h'.report_recalculate, fullPlan, fullPlan, formulaSet_congr hf, hg]
  · exact h.recalculate.cells_congr h'.recalculate h.settled_recalculate h'.settled_recalculate
      (h.content?_recalculate.trans (he.trans h'.content?_recalculate.symm))

theorem recalculate_again (h : s.Mirrored) : s.recalculate.2.recalculate = s.recalculate :=
  Prod.ext (h.recalculate.recalculate_congr h h.content?_recalculate).1
    (h.recalculate.recalculate_of_settled h.settled_recalculate)

end Mirrored

/-! ### Every reachable sheet -/

/-- What a full recalculation does to a sheet. -/
structure Canonical (s : Sheet) : Prop where
  /-- Nothing but cells changes. -/
  frame : s.recalculate.2 = { s with cells := s.recalculate.2.cells }
  /-- No cell comes or goes, and formulas and literals stay. -/
  contents : s.recalculate.2.cells.content? = s.cells.content?
  settled : s.recalculate.2.cells.Settled s.recalculate.2.graph.Edge
  cycles : ∀ r, r ∈ s.recalculate.1.cycles ↔ TransGen s.graph.Edge r r
  sorted : s.recalculate.1.cycles.Pairwise (· < ·)
  count : s.recalculate.1.recomputed + s.recalculate.1.cycles.length =
    s.cells.toList.countP (·.2.hasFormula)
  /-- Neither the mode nor what formula cells held makes a difference. -/
  unique : ∀ t : Sheet, t.Reachable → t.cells.content? = s.cells.content? →
    t.recalculate.1 = s.recalculate.1 ∧ t.recalculate.2.cells = s.recalculate.2.cells
  again : s.recalculate.2.recalculate = s.recalculate
  /-- A change of the mode does the same. -/
  other : ∀ mode, mode ≠ s.mode → s.setMode mode = (some s.recalculate.1, { s.recalculate.2 with mode })

theorem canonical_of_mirrored (h : s.Mirrored) : s.Canonical where
  frame := rfl
  contents := h.content?_recalculate
  settled := h.settled_recalculate
  cycles _ := h.mem_cycles_recalculate
  sorted := (h.planned s.formulaSet).sorted
  count := h.count_recalculate
  unique _ ht he := ht.mirrored.recalculate_congr h he
  again := h.recalculate_again
  other mode hmode := by rw [setMode, if_neg (Ne.symm hmode)]; rfl

/-- Every sheet that can be reached, with whatever stale values, is brought to one state. -/
theorem recalculate_canonical (mode : Sheet.Mode) (ops : List Op) :
    ((Sheet.empty mode).after ops).Canonical :=
  canonical_of_mirrored (mirrored_after mode ops)

end Sheet

end Spreadsheet
