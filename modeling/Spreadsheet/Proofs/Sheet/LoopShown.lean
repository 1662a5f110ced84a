import Spreadsheet.Proofs.Sheet.Pass
import Spreadsheet.Proofs.Sheet.Warning

/-!
# Which cycle a warning shows

The path of a warning leads from the first cell reported into a loop. A full recalculation reports all cells on
cycles, those of the loop among them. An edit reports only the cells that it reaches, while the path follows
precedents through the whole graph: the loop may be a cycle before the edited cell. The edit then reaches no cell
of it, and the cycle was there before (`loop_reported_or_older`).
-/

namespace Spreadsheet
open Relation

theorem Report.warning?_of_shown {report : Report} {g : Graph} {loop : List Ref}
    (hreport : report.loop = report.cycles.head?.bind g.loop?) (hloop : report.loop = some loop) :
    ∃ first, g.LoopPath first loop ∧
      report.warning? = some ("circular dependency: " ++ " -> ".intercalate (loop.map Ref.name)) := by
  obtain ⟨first, hfirst, hpath⟩ := Option.bind_eq_some_iff.1 (hreport.symm.trans hloop)
  have hne : report.cycles ≠ [] := fun hnil => by simp [hnil] at hfirst
  exact ⟨first, Graph.loopPath_of_loop? hpath, warning?_of_loop hne hloop⟩

namespace Graph
variable {g : Graph} {start x : Ref} {loop : List Ref}

theorem LoopPath.edges_of_closedPart (h : g.LoopPath start loop) (hg : g.WellFormed) (hx : x ∈ closedPart loop) :
    ∀ y ∈ closedPart loop, TransGen g.Edge y x := by
  intro y hy
  rw [← transGen_swap, ← hg.mentions_eq]
  exact (h.mem_closedPart hx).2 y hy

end Graph

namespace Sheet
open Spreadsheet.Graph (closedPart)
variable {s : Sheet} {op : Op} {report : Report} {loop : List Ref} {r x : Ref} {input : String}

theorem input?_of_computesAll (h : s.ComputesAll op) : op.input? = none := by
  cases op with
  | recalculate | setMode => rfl
  | set | setNamed | clear | initNamed | importText => cases h

/-- A cycle that an edit does not reach is older than the edit. -/
theorem Mirrored.cycle_of_not_reached (h : s.Mirrored) (hx : TransGen (s.put r input).graph.Edge x x)
    (hno : x ∉ (s.put r input).Reached r) : TransGen s.graph.Edge x x := by
  have hne : x ≠ r := by
    rintro rfl
    exact hno hx
  exact (cycle_iff_of_unreached (fun _ _ => h.edge_put) hne hno).2 hx

theorem Mirrored.loop_of_edit (h : s.Mirrored) (hloop : (s.set r input).1.loop = some loop) :
    let report := (s.set r input).1
    let g := (s.set r input).2.graph
    (∃ first, g.LoopPath first loop ∧
        report.warning? = some ("circular dependency: " ++ " -> ".intercalate (loop.map Ref.name))) ∧
      ∀ x, x ∈ report.cycles ↔ TransGen g.Edge r x ∧ TransGen g.Edge x x := by
  intro report g
  have hg : g = (s.put r input).graph := graph_set
  have hmode : (s.put r input).mode = .topological := by
    cases hmode : (s.put r input).mode with
    | topological => rfl
    | depthFirst =>
      have hnone : (s.set r input).1.loop = none := by
        rw [Sheet.set, propagate_of_depthFirst hmode]
      cases hnone.symm.trans hloop
  have hreport : report = _ := h.put.report_propagate_of_topological hmode r
  refine ⟨Report.warning?_of_shown ?_ hloop, fun x => ?_⟩
  · rw [hreport, hg]
  · rw [hg]
    exact (h.put.passedInOrder hmode r).cycles x

/-- The warning of an operation shows a path into a cycle. After a full recalculation the cells of this cycle are
all among those reported. After an edit either all of them are, being reached by the edit, or none is; and then
each of them was on a cycle before. -/
theorem loop_reported_or_older (h : s.InSession) (hreport : s.report? op = some report)
    (hloop : report.loop = some loop) :
    report.warning? = some ("circular dependency: " ++ " -> ".intercalate (loop.map Ref.name)) ∧
      closedPart loop ≠ [] ∧
      (∀ x ∈ closedPart loop, TransGen (s.apply op).graph.Edge x x) ∧
      (s.ComputesAll op → ∀ x ∈ closedPart loop, x ∈ report.cycles) ∧
      ∀ r input, op.input? = some (r, input) →
        (∀ x ∈ closedPart loop, x ∈ report.cycles ↔ TransGen (s.apply op).graph.Edge r x) ∧
          ((∀ x ∈ closedPart loop, x ∈ report.cycles) ∨
            ∀ x ∈ closedPart loop, x ∉ report.cycles ∧ TransGen s.graph.Edge x x) := by
  have hg : (s.apply op).graph.WellFormed := (h.apply op).mirrored.wellFormed
  cases hinput : op.input? with
  | some p =>
    obtain ⟨r, input⟩ := p
    obtain ⟨hreport', happly⟩ := report?_of_input? (s := s) hinput
    obtain rfl := Option.some.inj (hreport'.symm.trans hreport)
    rw [happly] at hg ⊢
    obtain ⟨⟨first, hpath, hwarning⟩, hcycles⟩ := h.mirrored.loop_of_edit hloop
    have hround : ∀ x ∈ closedPart loop, TransGen (s.set r input).2.graph.Edge x x := fun x hx =>
      hpath.edges_of_closedPart hg hx x hx
    have hiff : ∀ x ∈ closedPart loop,
        x ∈ (s.set r input).1.cycles ↔ TransGen (s.set r input).2.graph.Edge r x := fun x hx =>
      (hcycles x).trans (and_iff_left (hround x hx))
    refine ⟨hwarning, hpath.closedPart_ne_nil, hround, fun hall => ?_, ?_⟩
    · cases (input?_of_computesAll hall).symm.trans hinput
    · rintro _ _ ⟨⟩
      refine ⟨hiff, ?_⟩
      by_cases hreached : ∃ x ∈ closedPart loop, TransGen (s.set r input).2.graph.Edge r x
      · obtain ⟨x, hx, hrx⟩ := hreached
        exact .inl fun y hy => (hiff y hy).2 (hrx.trans (hpath.edges_of_closedPart hg hy x hx))
      · refine .inr fun x hx => ⟨fun hmem => hreached ⟨x, hx, (hiff x hx).1 hmem⟩, ?_⟩
        have hcycle := hround x hx
        rw [graph_set] at hcycle hreached
        exact h.mirrored.cycle_of_not_reached hcycle fun hrx => hreached ⟨x, hx, hrx⟩
  | none =>
    by_cases hall : s.ComputesAll op
    · obtain ⟨mode, hreport', happly⟩ := exists_recalculate_of_computesAll hall
      obtain rfl := Option.some.inj (hreport'.symm.trans hreport)
      rw [happly] at hg ⊢
      have hs : Mirrored { s with mode } := h.mirrored.assign mode s.path s.modified
      obtain ⟨first, hpath, hwarning⟩ := Report.warning?_of_shown (g := s.graph) rfl hloop
      have hround : ∀ x ∈ closedPart loop, TransGen s.graph.Edge x x := fun x hx =>
        hpath.edges_of_closedPart hg hx x hx
      exact ⟨hwarning, hpath.closedPart_ne_nil, hround, fun _ x hx => hs.mem_cycles_recalculate.2 (hround x hx),
        nofun⟩
    · obtain ⟨hnone, -⟩ := report?_of_not_computesAll hinput hall
      cases hnone.symm.trans hreport

theorem loop_set_of_topological (hmode : s.mode = .topological) (hx : (s.set r input).1.cycles.head? = some x) :
    (s.set r input).1.loop = (s.put r input).graph.loop? x := by
  rw [set_of_topological hmode] at hx ⊢
  exact congrArg (Option.bind · (s.put r input).graph.loop?) hx

/-- `B1` comes to mention itself and `A1`, which does so already. The edit reports `B1` alone, but from `B1` the
path goes to `A1` first. -/
theorem set_behind_cycle :
    let s := (Sheet.empty .topological).after [.set ⟨0, 0⟩ "=A1"]
    (s.set ⟨0, 1⟩ "=A1+B1").1.cycles = [⟨0, 1⟩] ∧
      (s.set ⟨0, 1⟩ "=A1+B1").1.loop = some [⟨0, 1⟩, ⟨0, 0⟩, ⟨0, 0⟩] := by
  intro s
  have hcycles : (s.set ⟨0, 1⟩ "=A1+B1").1.cycles = [⟨0, 1⟩] := by decide +kernel
  refine ⟨hcycles, ?_⟩
  have hA1 : Cell.mentionedBy "=A1" = [⟨0, 0⟩] := by decide +kernel
  have hB1 : Cell.mentionedBy "=A1+B1" = [⟨0, 0⟩, ⟨0, 1⟩] := by decide +kernel
  have hgraph : (s.put ⟨0, 1⟩ "=A1+B1").graph =
      (Graph.empty.setPrecedents ⟨0, 0⟩ [⟨0, 0⟩]).setPrecedents ⟨0, 1⟩ [⟨0, 0⟩, ⟨0, 1⟩] := by
    rw [graph_put, hB1, show s.graph = _ from graph_set, graph_put, hA1]
    rfl
  rw [loop_set_of_topological rfl (by rw [hcycles, List.head?_cons]), hgraph]
  cbv

theorem loop_reported_or_older_behind_cycle :
    let s := (Sheet.empty .topological).after [.set ⟨0, 0⟩ "=A1"]
    ∃ report loop, s.report? (.set ⟨0, 1⟩ "=A1+B1") = some report ∧ report.loop = some loop ∧
      ∀ x ∈ closedPart loop, x ∉ report.cycles ∧ TransGen s.graph.Edge x x := by
  intro s
  have h : s.InSession := .after (.empty _) _
  obtain ⟨hcycles, hloop⟩ := set_behind_cycle
  have hreport : s.report? (.set ⟨0, 1⟩ "=A1+B1") = some (s.set ⟨0, 1⟩ "=A1+B1").1 := rfl
  obtain ⟨-, -, -, -, hedit⟩ := loop_reported_or_older h hreport hloop
  refine ⟨_, _, hreport, hloop, (hedit ⟨0, 1⟩ "=A1+B1" rfl).2.resolve_left fun hall => ?_⟩
  have hA1 : ⟨0, 0⟩ ∈ (s.set ⟨0, 1⟩ "=A1+B1").1.cycles := hall ⟨0, 0⟩ (by decide)
  rw [hcycles] at hA1
  exact absurd hA1 (by decide)

/-- The warning of this edit shows no cell that the edit reports. -/
theorem loop_of_cycle_before :
    let s := (Sheet.empty .topological).after [.set ⟨0, 0⟩ "=A1"]
    ∃ report loop, s.report? (.set ⟨0, 1⟩ "=A1+B1") = some report ∧ report.loop = some loop ∧
      report.warning? = some "circular dependency: B1 -> A1 -> A1" ∧
      ∃ x ∈ closedPart loop, x ∉ report.cycles := by
  intro s
  obtain ⟨hcycles, hloop⟩ := set_behind_cycle
  refine ⟨_, _, rfl, hloop, ?_, ⟨0, 0⟩, by decide, ?_⟩
  · rw [Report.warning?_of_loop (by rw [hcycles]; exact List.cons_ne_nil _ _) hloop]
    decide +kernel
  · rw [hcycles]
    decide

end Sheet

end Spreadsheet
