import Spreadsheet.Proofs.Graph.Loop
import Spreadsheet.Proofs.Graph.Plan
import Spreadsheet.Sheet.Recalculation

/-!
# The warning about a cycle

A recalculation that finds cells on cycles warns with a path from the first of them into a loop. That cell
leads to a cycle, namely its own, so the search for a loop finds a path (`Planned.exists_loop?`) and the
warning never falls back to the name of the cell alone (`loop?_after`).
-/

namespace Spreadsheet
open Relation

theorem Report.warning?_of_loop {report : Report} {loop : List Ref} (hne : report.cycles ≠ [])
    (hloop : report.loop = some loop) :
    report.warning? = some ("circular dependency: " ++ " -> ".intercalate (loop.map Ref.name)) := by
  obtain ⟨first, rest, hcycles⟩ := List.exists_cons_of_ne_nil hne
  rw [warning?, hcycles, hloop]

namespace Graph
variable {g : Graph} {cells : RefSet} {plan : Plan} {r : Ref}

theorem Planned.exists_loop? (h : g.Planned cells plan) (hg : g.WellFormed) (hr : r ∈ plan.cycles) :
    ∃ loop, g.loop? r = some loop := by
  have hcycle : TransGen g.Mentions r r := by
    rw [hg.mentions_eq, transGen_swap]
    exact transGen_of_inside ((h.cycles r).1 hr)
  exact Option.isSome_iff_exists.1 (isSome_loop?_iff.2 fun hfree => hfree r .refl hcycle)

/-- The search finds a path exactly if a cycle can be reached along precedents, and the path shows one. So a
recalculation that reports cycles warns with a path from the first cell on them. -/
theorem loop?_after (changes : List Change) :
    let g := empty.after changes
    (∀ start,
        ((g.loop? start).isSome ↔ ∃ x, ReflTransGen g.Mentions start x ∧ TransGen g.Mentions x x) ∧
          ∀ loop, g.loop? start = some loop → g.LoopPath start loop) ∧
      ∀ (s : Sheet) (cells : RefSet), s.graph = g → (g.plan cells).cycles ≠ [] →
        ∃ first loop, (g.plan cells).cycles.head? = some first ∧ g.loop? first = some loop ∧
          (s.follow (g.plan cells)).1.warning? =
            some ("circular dependency: " ++ " -> ".intercalate (loop.map Ref.name)) := by
  intro g
  have hg : g.WellFormed := wellFormed_empty.after changes
  refine ⟨fun start => ⟨?_, fun loop => loopPath_of_loop?⟩, fun s cells hs hne => ?_⟩
  · rw [isSome_loop?_iff, LoopFree]
    push Not
    rfl
  · obtain ⟨first, rest, hcycles⟩ := List.exists_cons_of_ne_nil hne
    have hhead : (g.plan cells).cycles.head? = some first := by rw [hcycles, List.head?_cons]
    obtain ⟨loop, hloop⟩ := (hg.plan_spec cells).exists_loop? hg (List.mem_of_mem_head? hhead)
    have hreport : (s.follow (g.plan cells)).1.loop = some loop := by
      show (g.plan cells).cycles.head?.bind s.graph.loop? = some loop
      rw [hhead, hs, Option.bind_some, hloop]
    exact ⟨first, loop, hhead, hloop, Report.warning?_of_loop hne hreport⟩

-- `A1` mentions the harmless `B1` before `C1`, which is on a cycle with `D1`
example :
    (empty.after [.setPrecedents ⟨0, 0⟩ [⟨0, 1⟩, ⟨0, 2⟩], .setPrecedents ⟨0, 1⟩ [⟨0, 4⟩],
      .setPrecedents ⟨0, 2⟩ [⟨0, 3⟩], .setPrecedents ⟨0, 3⟩ [⟨0, 2⟩]]).loop? ⟨0, 0⟩ =
        some [⟨0, 0⟩, ⟨0, 2⟩, ⟨0, 3⟩, ⟨0, 2⟩] := by
  cbv

end Graph

end Spreadsheet
