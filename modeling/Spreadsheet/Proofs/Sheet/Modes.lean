import Spreadsheet.Proofs.Sheet.Pass
import Spreadsheet.Proofs.Walk

/-!
# Where the modes agree

The passes of the two modes compute the cells in different orders, and in depth-first mode a cell may come
before another one that it reads. Not so a cell to which only one walk leads from the edited cell. Of the cells
that change it reads the one before it on the walk and no other; it is met from there, so it comes after it
in either order and ends with the value of its formula over what the pass leaves
(`Mirrored.values_propagate_of_onlyWalk`). Hence, by induction along the walk, the passes leave the same in it
(`Mirrored.passed_congr`), whatever they leave elsewhere. If only one walk leads to each cell that is reached,
the passes leave the same everywhere and report the same (`Mirrored.passed_eq`, `Mirrored.report_congr`).
-/

namespace Spreadsheet
open Relation

namespace Graph.WellFormed
variable {g : Graph} {r x p y : Ref}

theorem mem_precedents (h : g.WellFormed) : y ∈ g.precedents x ↔ g.Edge y x := (h.mirror y x).symm

theorem edge_iff_of_precedents (h : g.WellFormed) (hx : (g.precedents x).toList = [p]) : g.Edge y x ↔ y = p := by
  rw [← h.mem_precedents, ← Std.ExtTreeSet.mem_toList, hx, List.mem_singleton]

theorem existsUnique_of_precedents (h : g.WellFormed) (hx : (g.precedents x).toList = [p])
    (hp : p = r ∨ TransGen g.Edge r p) : ∃! p, p ∈ g.precedents x ∧ (p = r ∨ TransGen g.Edge r p) := by
  simp only [h.mem_precedents, h.edge_iff_of_precedents hx]
  exact ⟨p, ⟨rfl, hp⟩, fun y hy => hy.1⟩

theorem onlyWalk_of_precedents (h : g.WellFormed) (hno : ¬ TransGen g.Edge r r)
    (hprec : ∀ x, TransGen g.Edge r x → ∃! p, p ∈ g.precedents x ∧ (p = r ∨ TransGen g.Edge r p))
    (hx : TransGen g.Edge r x) : OnlyWalk g.Edge r x := by
  refine onlyWalk_of_steps hno (fun b hb => ?_) hx.to_reflTransGen
  simpa only [h.mem_precedents, reflTransGen_iff_eq_or_transGen] using hprec b hb

end Graph.WellFormed

namespace Sheet
variable {s : Sheet} {r x : Ref} {input f : String} {mode mode' : Sheet.Mode}

/-! ### One pass -/

namespace Mirrored

/-- The one cell that is reached and steps to `x` was met before `x`, so it does not change any more. -/
theorem values_visits_of_onlyWalk (h : s.Mirrored) (hreach : TransGen s.graph.Edge r x)
    (honly : OnlyWalk s.graph.Edge r x) (hf : s.cells.formula? x = some f) :
    (s.cells.recomputeAll (s.graph.visits r)).2.values x =
      some (Formula.value (s.cells.recomputeAll (s.graph.visits r)).2.values f) := by
  have hxr : x ≠ r := fun hx => honly.not_cycle_start (hx ▸ hreach)
  obtain ⟨before, behind, hvisits⟩ := List.append_of_mem (h.wellFormed.mem_visits.2 ⟨hreach, hxr⟩)
  have hnodup : (before ++ x :: behind).Nodup := hvisits ▸ Graph.nodup_visits
  have hmet : ∀ a ∈ before ++ x :: behind, TransGen s.graph.Edge r a ∧ a ≠ r := fun a ha =>
    h.wellFormed.mem_visits.1 (hvisits ▸ ha)
  obtain ⟨hxbehind, -⟩ := List.nodup_cons.1 hnodup.of_append_right
  rw [hvisits]
  refine Store.values_recomputeAll_of_turn hxbehind (fun a ha hax => ?_) hf
  have ha' := hmet a (List.mem_append_right _ ha)
  obtain ⟨p, hpx, hp⟩ := Graph.exists_edge_of_visits hvisits
  have hrp : ReflTransGen s.graph.Edge r p := by
    rcases hp with rfl | hp
    · exact .refl
    · exact (hmet p (List.mem_append_left _ hp)).1.to_reflTransGen
  -- a precedent to come would be a second way in, beside the cell from which `x` is met
  obtain rfl := honly.eq_of_steps hrp hpx ha'.1.to_reflTransGen ((h.edge a x).2 hax)
  rcases hp with rfl | hp
  · exact ha'.2 rfl
  · exact List.disjoint_of_nodup_append hnodup hp ha

theorem values_propagate_of_onlyWalk (h : s.Mirrored) (hreach : TransGen s.graph.Edge r x)
    (honly : OnlyWalk s.graph.Edge r x) (hf : s.cells.formula? x = some f) :
    (s.propagate r).2.cells.values x = some (Formula.value (s.propagate r).2.cells.values f) := by
  cases hmode : s.mode with
  | topological =>
    have hsettled := h.settledAt_follow (h.planned (s.graph.affected r))
      (fun _ _ => h.wellFormed.affected_closed) (h.wellFormed.mem_affected.2 hreach)
    rw [propagate_of_topological hmode]
    refine hsettled.computed f ?_ honly.not_cycle
    rw [Store.formula?_congr (h.content?_follow (h.planned _)), hf]
  | depthFirst =>
    rw [propagate_of_depthFirst hmode]
    exact h.values_visits_of_onlyWalk hreach honly hf

end Mirrored

/-! ### Two passes -/

/-- The cells after a pass in some mode. -/
def passed (s : Sheet) (mode : Sheet.Mode) (r : Ref) : Store := (propagate { s with mode } r).2.cells

namespace Mirrored

theorem content?_passed (h : s.Mirrored) : (s.passed mode r).content? = s.cells.content? :=
  (h.assign mode s.path s.modified).content?_propagate

theorem getElem?_passed_of_unreached (h : s.Mirrored) (hx : ¬ TransGen s.graph.Edge r x) :
    (s.passed mode r)[x]? = s.cells[x]? :=
  (h.assign mode s.path s.modified).getElem?_propagate hx

/-- The passes agree on a cell if they agree on what is reached of the cells that it reads. -/
theorem passed_congr_of_reads (h : s.Mirrored) (hreach : TransGen s.graph.Edge r x)
    (honly : OnlyWalk s.graph.Edge r x)
    (hread : ∀ a, TransGen s.graph.Edge r a → s.graph.Edge a x →
      (s.passed mode r)[a]? = (s.passed mode' r)[a]?) :
    (s.passed mode r)[x]? = (s.passed mode' r)[x]? := by
  obtain ⟨f, hf⟩ := h.formula?_of_reached hreach
  have hvalue (mode) : (s.passed mode r).values x = some (Formula.value (s.passed mode r).values f) :=
    (h.assign mode s.path s.modified).values_propagate_of_onlyWalk hreach honly hf
  have hsame : ∀ a ∈ Formula.references f, (s.passed mode r).values a = (s.passed mode' r).values a := by
    intro a ha
    rw [Store.values, Store.values]
    by_cases har : TransGen s.graph.Edge r a
    · rw [hread a har ((h.edge a x).2 ⟨f, hf, ha⟩)]
    · rw [h.getElem?_passed_of_unreached har, h.getElem?_passed_of_unreached har]
  refine Store.getElem?_congr (by rw [h.content?_passed, h.content?_passed]) ?_
  rw [hvalue, hvalue, Formula.value_congr hsame]

theorem passed_congr (h : s.Mirrored) (hreach : TransGen s.graph.Edge r x) (honly : OnlyWalk s.graph.Edge r x) :
    (s.passed mode r)[x]? = (s.passed mode' r)[x]? := by
  induction hreach with
  | @single x hrx =>
    refine h.passed_congr_of_reads (.single hrx) honly fun a hra hax => ?_
    obtain rfl := honly.eq_of_steps .refl hrx hra.to_reflTransGen hax
    exact absurd hra honly.not_cycle_start
  | @tail b x hrb hbx ih =>
    refine h.passed_congr_of_reads (hrb.tail hbx) honly fun a hra hax => ?_
    obtain rfl := honly.eq_of_steps hrb.to_reflTransGen hbx hra.to_reflTransGen hax
    exact ih (honly.of_step hrb.to_reflTransGen hbx)

theorem passed_eq (h : s.Mirrored) (honly : ∀ x, TransGen s.graph.Edge r x → OnlyWalk s.graph.Edge r x) :
    s.passed mode r = s.passed mode' r := by
  refine Std.ExtTreeMap.ext_getElem? fun x => ?_
  by_cases hx : TransGen s.graph.Edge r x
  · exact h.passed_congr hx (honly x hx)
  · rw [h.getElem?_passed_of_unreached hx, h.getElem?_passed_of_unreached hx]

/-- Where only one walk leads to each cell that is reached, none is on a cycle, and both passes count all. -/
theorem report_congr (h : s.Mirrored)
    (honly : ∀ x, TransGen s.graph.Edge r x → OnlyWalk s.graph.Edge r x) :
    (propagate { s with mode := .depthFirst } r).1 = (propagate { s with mode := .topological } r).1 := by
  have hcycles : (s.planFor r).cycles = [] := List.eq_nil_iff_forall_not_mem.2 fun x hx =>
    have ⟨hreach, hcycle⟩ := h.mem_cycles_planFor.1 hx
    (honly x hreach).not_cycle hcycle
  have hperm : (s.graph.visits r).Perm (s.planFor r).order := by
    refine (List.perm_ext_iff_of_nodup Graph.nodup_visits (h.planned_planFor r).nodup).2 fun x => ?_
    rw [h.mem_visits, h.mem_order_planFor]
    refine and_congr_right fun hreach => iff_of_true ?_ (honly x hreach).not_cycle
    rintro rfl
    exact (honly x hreach).not_cycle hreach
  rw [(h.assign .topological s.path s.modified).report_propagate_of_topological rfl, propagate_of_depthFirst rfl,
    Store.recomputed_of_formula fun x => h.formula?_of_visits]
  show Report.mk (s.graph.visits r).length [] none =
    ⟨(s.planFor r).order.length, (s.planFor r).cycles, (s.planFor r).cycles.head?.bind s.graph.loop?⟩
  rw [hperm.length_eq, hcycles]
  rfl

end Mirrored

/-! ### An edit in each mode -/

theorem set_assign_mode : set { s with mode } r input = propagate { s.put r input with mode } r := by
  have hput : put { s with mode } r input = { s.put r input with mode } := by
    unfold put
    split <;> rfl
  rw [set, hput]

/-- The same edit in the one mode and in the other leaves the same in each cell to which only one walk leads. If
each cell that is reached has one precedent alone among the edited cell and those reached, and the edited cell
is not reached itself, the modes leave the same everywhere and report the same. -/
theorem modes_agree (h : s.InSession) (r : Ref) (input : String) :
    let deep := set { s with mode := .depthFirst } r input
    let ordered := set { s with mode := .topological } r input
    let g := ordered.2.graph
    deep.2.graph = g ∧
      (∀ x, TransGen g.Edge r x → (∃! walk, Walk g.Edge r walk x) → deep.2.cell? x = ordered.2.cell? x) ∧
      ((∀ x, TransGen g.Edge r x → ∃! p, p ∈ g.precedents x ∧ (p = r ∨ TransGen g.Edge r p)) →
        ¬ TransGen g.Edge r r → deep.2.cells = ordered.2.cells ∧ deep.1 = ordered.1) := by
  intro deep ordered g
  have hput : (s.put r input).Mirrored := h.mirrored.put
  have hdeep : deep = propagate { s.put r input with mode := .depthFirst } r := set_assign_mode
  have hordered : ordered = propagate { s.put r input with mode := .topological } r := set_assign_mode
  have hg : g = (s.put r input).graph := (congrArg (·.2.graph) hordered).trans (graph_propagate r)
  rw [hdeep, hordered, hg]
  refine ⟨graph_propagate r, fun x => hput.passed_congr, fun hprec hno => ?_⟩
  have honly := fun x => hput.wellFormed.onlyWalk_of_precedents hno hprec (x := x)
  exact ⟨hput.passed_eq honly, hput.report_congr honly⟩

/-- In `s` the cell `B1` is met before `C1`, which it reads, so the modes differ there. Only one walk leads on
from `A1` to `C1` and `D1`, with a cycle of `E1` and `F1` behind them. In `t` the cells form a tree, in which
the passes take `C1` and `D1` in different orders. -/
theorem modes_agree_beside_stale :
    let edit (s : Sheet) (mode : Sheet.Mode) := set { s with mode } ⟨0, 0⟩ "5"
    let s := (Sheet.empty .topological).after [.set ⟨0, 0⟩ "1", .set ⟨0, 1⟩ "=A1+C1", .set ⟨0, 2⟩ "=A1*2",
      .set ⟨0, 3⟩ "=C1+1", .set ⟨0, 4⟩ "=D1+F1", .set ⟨0, 5⟩ "=E1"]
    let t := (Sheet.empty .topological).after [.set ⟨0, 0⟩ "1", .set ⟨0, 1⟩ "=A1+1", .set ⟨0, 2⟩ "=B1*2",
      .set ⟨0, 3⟩ "=A1"]
    (edit s .depthFirst).2.cell? ⟨0, 1⟩ ≠ (edit s .topological).2.cell? ⟨0, 1⟩ ∧
      (edit s .depthFirst).2.cell? ⟨0, 3⟩ = (edit s .topological).2.cell? ⟨0, 3⟩ ∧
      (edit t .depthFirst).2.cells = (edit t .topological).2.cells ∧
      (edit t .depthFirst).1 = (edit t .topological).1 := by
  intro edit s t
  refine ⟨by decide +kernel, ?_, ?_⟩
  · have hs : s.InSession := .after (.empty _) _
    have hg : (edit s .topological).2.graph.WellFormed := (hs.mirrored.assign _ _ _).set.wellFormed
    have hC : ∀ y, (edit s .topological).2.graph.Edge y ⟨0, 2⟩ ↔ y = ⟨0, 0⟩ := fun y =>
      hg.edge_iff_of_precedents (by decide +kernel)
    have hD : ∀ y, (edit s .topological).2.graph.Edge y ⟨0, 3⟩ ↔ y = ⟨0, 2⟩ := fun y =>
      hg.edge_iff_of_precedents (by decide +kernel)
    have hA : OnlyWalk (edit s .topological).2.graph.Edge ⟨0, 0⟩ ⟨0, 0⟩ :=
      onlyWalk_refl (mt hg.mem_affected.2 (by decide +kernel))
    have hwalk := (hA.step ((hC _).2 rfl) fun y _ => (hC y).1).step ((hD _).2 rfl) fun y _ => (hD y).1
    exact (modes_agree hs ⟨0, 0⟩ "5").2.1 ⟨0, 3⟩ (.tail (.single ((hC _).2 rfl)) ((hD _).2 rfl)) hwalk
  · have ht : t.InSession := .after (.empty _) _
    have hg : (edit t .topological).2.graph.WellFormed := (ht.mirrored.assign _ _ _).set.wellFormed
    refine (modes_agree ht ⟨0, 0⟩ "5").2.2 (fun x hx => ?_) (mt hg.mem_affected.2 (by decide +kernel))
    have haffected : ((edit t .topological).2.graph.affected ⟨0, 0⟩).toList = [⟨0, 1⟩, ⟨0, 2⟩, ⟨0, 3⟩] := by
      decide +kernel
    have hB : (edit t .topological).2.graph.Edge ⟨0, 0⟩ ⟨0, 1⟩ :=
      (hg.edge_iff_of_precedents (by decide +kernel)).2 rfl
    have hmem := Std.ExtTreeSet.mem_toList.2 (hg.mem_affected.2 hx)
    rw [haffected, List.mem_cons, List.mem_cons, List.mem_singleton] at hmem
    rcases hmem with rfl | rfl | rfl
    · exact hg.existsUnique_of_precedents (by decide +kernel) (.inl rfl)
    · exact hg.existsUnique_of_precedents (by decide +kernel) (.inr (.single hB))
    · exact hg.existsUnique_of_precedents (by decide +kernel) (.inl rfl)

end Sheet

end Spreadsheet
