import Spreadsheet.Proofs.Graph.Visits
import Spreadsheet.Proofs.Sheet.Session
import Spreadsheet.Proofs.Sheet.Settling

/-!
# What an edit leaves alone

An edit rewires the cell that it sets before it passes the change on, but only edges that enter this cell
change. So the cells that can be reached from it are the same before and after (`Mirrored.reaches_put_iff`),
and both ways of passing the change on write to these cells and to no others (`getElem?_propagate`).
-/

namespace Spreadsheet
open Relation

namespace Sheet
variable {s : Sheet} {r x : Ref} {input : String}

/-! ### The cells that a change does not reach -/

theorem propagate_eq (s : Sheet) (r : Ref) : ∃ cells, (s.propagate r).2 = { s with cells } := by
  unfold propagate
  split <;> exact ⟨_, rfl⟩

theorem put_eq (s : Sheet) (r : Ref) (input : String) :
    ∃ cells graph, s.put r input = { s with cells, graph, modified := true } := by
  unfold put
  split <;> exact ⟨_, _, rfl⟩

theorem propagate_of_depthFirst (hmode : s.mode = .depthFirst) (r : Ref) :
    s.propagate r = (⟨(s.cells.recomputeAll (s.graph.visits r)).1, [], none⟩,
      { s with cells := (s.cells.recomputeAll (s.graph.visits r)).2 }) := by
  rw [propagate, hmode]
  rfl

namespace Mirrored

theorem getElem?_propagate (h : s.Mirrored) (hx : ¬ TransGen s.graph.Edge r x) :
    (s.propagate r).2.cells[x]? = s.cells[x]? := by
  cases hmode : s.mode with
  | topological =>
    rw [propagate_of_topological hmode]
    exact getElem?_follow_of_notMem (h.planned _) (mt h.wellFormed.mem_affected.1 hx)
  | depthFirst =>
    rw [propagate_of_depthFirst hmode]
    exact Store.getElem?_recomputeAll_of_notMem fun hmem => hx (h.wellFormed.mem_visits.1 hmem).1

theorem reaches_put_iff (h : s.Mirrored) (hx : x ≠ r) :
    TransGen (s.put r input).graph.Edge r x ↔ TransGen s.graph.Edge r x where
  mp := transGen_of_agree (fun _ _ hb => (h.edge_put hb).2) hx
  mpr := transGen_of_agree (fun _ _ hb => (h.edge_put hb).1) hx

end Mirrored

/-! ### The footprint of an edit -/

/-- What a change of one cell of `s` leaves as it was in `t`. -/
structure Footprint (s t : Sheet) (r : Ref) : Prop where
  /-- The cells that the change can reach are the same in both. -/
  reaches : ∀ x, x ≠ r → (TransGen t.graph.Edge r x ↔ TransGen s.graph.Edge r x)
  cell : ∀ x, x ≠ r → ¬ TransGen s.graph.Edge r x → t.cell? x = s.cell? x
  formula : ∀ x, x ≠ r → (t.cell? x).map Cell.formula = (s.cell? x).map Cell.formula
  /-- No cell is created or removed, except that the changed cell exists. -/
  mem : ∀ x, x ∈ t.cells ↔ x = r ∨ x ∈ s.cells
  precedents : ∀ x, x ≠ r → t.graph.precedents x = s.graph.precedents x
  mode : t.mode = s.mode
  path : t.path = s.path
  modified : t.modified = true

theorem map_formula_eq {cells : Store} :
    cells[x]?.map Cell.formula = (cells.content? x).map Sum.getLeft? := by
  unfold Store.content? Cell.content
  cases cells[x]? with
  | none => rfl
  | some c => rcases c with ⟨v, _ | f⟩ <;> rfl

theorem mem_iff_isSome_content? {cells : Store} : x ∈ cells ↔ (cells.content? x).isSome := by
  rw [Std.ExtTreeMap.mem_iff_isSome_getElem?, Store.content?, Option.isSome_map]

namespace Mirrored

theorem cell?_set (h : s.Mirrored) (hx : x ≠ r) (hreach : ¬ TransGen s.graph.Edge r x) :
    (s.set r input).2.cell? x = s.cell? x := by
  have hreach' : ¬ TransGen (s.put r input).graph.Edge r x := mt (h.reaches_put_iff hx).1 hreach
  exact (h.put.getElem?_propagate hreach').trans (getElem?_put_of_ne (Ne.symm hx))

theorem footprint_set (h : s.Mirrored) (r : Ref) (input : String) : s.Footprint (s.set r input).2 r := by
  obtain ⟨cells, graph, hput⟩ := s.put_eq r input
  obtain ⟨cells', hpropagate⟩ := (s.put r input).propagate_eq r
  have hset : (s.set r input).2 = { s with cells := cells', graph, modified := true } := by
    rw [Sheet.set, hpropagate, hput]
  refine ⟨fun x hx => ?_, fun x => h.cell?_set, fun x hx => ?_, fun x => ?_, fun x hx => ?_, ?_, ?_, ?_⟩
  · rw [graph_set]
    exact h.reaches_put_iff hx
  · rw [cell?, cell?, map_formula_eq, map_formula_eq, h.content?_set, if_neg (Ne.symm hx)]
  · rw [mem_iff_isSome_content?, mem_iff_isSome_content?, h.content?_set]
    by_cases hx : r = x
    · simp [hx]
    · simp [hx, Ne.symm hx]
  · rw [graph_set, graph_put]
    refine Std.ExtTreeSet.ext_mem fun a => ?_
    rw [Graph.mem_precedents_setPrecedents, if_neg hx]
  · rw [hset]
  · rw [hset]
  · rw [hset]

end Mirrored

/-- At any moment of a session, in either mode, an edit changes the edited cell and values that depend on it,
and nothing else. -/
theorem footprint_of_inSession (h : s.InSession) (r : Ref) (input : String) :
    s.Footprint (s.set r input).2 r :=
  h.mirrored.footprint_set r input

/-- An edit in depth-first mode that takes `B1` from `A1` and puts it on a cycle with `C1`. -/
theorem footprint_of_inSession_cycle :
    let ops := [.set ⟨0, 0⟩ "1", .set ⟨0, 1⟩ "=A1+1", .set ⟨0, 2⟩ "=B1*2"]
    let s := { (Sheet.empty .topological).after ops with
      mode := .depthFirst, path := some "book.csv", modified := false }
    s.Footprint (s.set ⟨0, 1⟩ "=C1").2 ⟨0, 1⟩ :=
  footprint_of_inSession (.assign .depthFirst (some "book.csv") false ((InSession.empty .topological).after _))
    _ _

end Sheet

end Spreadsheet
