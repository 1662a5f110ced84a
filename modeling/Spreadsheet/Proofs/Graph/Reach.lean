import Spreadsheet.Graph.Reach
import Spreadsheet.Proofs.Cycle
import Spreadsheet.Proofs.Graph.Edges

/-!
# What the walk meets

`mem_discover` says what the walk over unmet cells answers: the cells at the end of a path of edges that
starts in a cell to do and goes through unmet cells only. On a well-formed graph the unmet cells of
`affected` are all the cells that an edge can enter, so a change reaches exactly what paths reach
(`mem_affected`), and what it reaches is closed.
-/

namespace Spreadsheet
open Relation

namespace Graph
variable {g : Graph} {todo unmet : List Ref} {a b r x start : Ref}

/-- An edge into a cell of the list. -/
def EdgeInto (g : Graph) (cells : List Ref) (a b : Ref) : Prop := g.Edge a b ∧ b ∈ cells

theorem mem_dependentsIn : x ∈ g.dependentsIn r unmet ↔ g.EdgeInto unmet r x := by
  simp [dependentsIn, EdgeInto, Edge, and_comm]

theorem mem_othersIn : x ∈ g.othersIn r unmet ↔ x ∈ unmet ∧ ¬ g.Edge r x := by
  simp [othersIn, Edge]

theorem EdgeInto.of_others (h : g.EdgeInto (g.othersIn r unmet) a b) : g.EdgeInto unmet a b :=
  ⟨h.1, (mem_othersIn.1 h.2).1⟩

theorem EdgeInto.met_or_others (r : Ref) (h : g.EdgeInto unmet a b) :
    b ∈ g.dependentsIn r unmet ∨ g.EdgeInto (g.othersIn r unmet) a b := by
  by_cases hr : g.Edge r b
  · exact .inl (mem_dependentsIn.2 ⟨hr, h.2⟩)
  · exact .inr ⟨h.1, mem_othersIn.2 ⟨h.2, hr⟩⟩

/-- The unmet cells to which a path leads from one of the cells to do. -/
def Met (g : Graph) (todo unmet : List Ref) (x : Ref) : Prop := ∃ a ∈ todo, TransGen (g.EdgeInto unmet) a x

/-- One step of the walk: what is met through `r` is met at once or behind a cell met at once. -/
theorem met_cons :
    g.Met (r :: todo) unmet x ↔ x ∈ g.dependentsIn r unmet ∨
      g.Met ((g.dependentsIn r unmet).reverse ++ todo) (g.othersIn r unmet) x := by
  constructor
  · rintro ⟨a, ha, hpath⟩
    induction hpath with
    | @single b hab =>
      refine (hab.met_or_others r).imp_right fun hother => ?_
      rcases List.mem_cons.1 ha with rfl | ha
      · exact absurd hab.1 (mem_othersIn.1 hother.2).2
      · exact ⟨a, List.mem_append_right _ ha, .single hother⟩
    | @tail b c _ hbc ih =>
      refine (hbc.met_or_others r).imp_right fun hother => ?_
      rcases ih with hb | ⟨a', ha', hpath⟩
      · exact ⟨b, List.mem_append_left _ (List.mem_reverse.2 hb), .single hother⟩
      · exact ⟨a', ha', hpath.tail hother⟩
  · rintro (hx | ⟨a, ha, hpath⟩)
    · exact ⟨r, List.mem_cons_self, .single (mem_dependentsIn.1 hx)⟩
    · have hpath' := TransGen.mono (fun _ _ => EdgeInto.of_others) _ _ hpath
      rcases List.mem_append.1 ha with ha | ha
      · exact ⟨r, List.mem_cons_self, .head (mem_dependentsIn.1 (List.mem_reverse.1 ha)) hpath'⟩
      · exact ⟨a, List.mem_cons_of_mem _ ha, hpath'⟩

theorem mem_discover : x ∈ g.discover todo unmet ↔ g.Met todo unmet x := by
  fun_induction discover g todo unmet with
  | case1 => simp [Met]
  | case2 unmet r todo met ih => rw [List.mem_append, ih, met_cons]

theorem WellFormed.mem_formulaCells (h : g.WellFormed) (hab : g.Edge a b) : b ∈ g.formulaCells := by
  have hmem : a ∈ g.precedentMap[b]?.getD ∅ := (h.mirror a b).1 hab
  rw [formulaCells, Std.ExtTreeMap.mem_keys, Std.ExtTreeMap.mem_iff_isSome_getElem?]
  cases hb : g.precedentMap[b]? with
  | none => simp [hb] at hmem
  | some s => rfl

theorem WellFormed.mem_affected (h : g.WellFormed) : x ∈ g.affected start ↔ TransGen g.Edge start x := by
  have hsteps : g.EdgeInto g.formulaCells = g.Edge := by
    funext a b
    exact propext ⟨And.left, fun hab => ⟨hab, h.mem_formulaCells hab⟩⟩
  rw [affected, Std.ExtTreeSet.mem_ofList, List.contains_iff_mem, mem_discover, Met, hsteps]
  simp

theorem WellFormed.affected_closed (h : g.WellFormed) (ha : a ∈ g.affected start) (hab : g.Edge a b) :
    b ∈ g.affected start :=
  h.mem_affected.2 ((h.mem_affected.1 ha).tail hab)

theorem onCycleIn_iff {within : RefSet} (hr : r ∈ within) :
    g.onCycleIn within r ↔ TransGen (Inside g.Edge {x | x ∈ within}) r r := by
  rw [onCycleIn, decide_eq_true_iff, mem_discover]
  constructor
  · rintro ⟨a, ha, hpath⟩
    obtain rfl := List.mem_singleton.1 ha
    -- all cells that the path enters are in the set, and so is the one it starts in
    suffices h : ∀ x, TransGen (g.EdgeInto within.toList) a x →
        TransGen (Inside g.Edge {x | x ∈ within}) a x from h a hpath
    intro x hx
    induction hx with
    | single h => exact .single ⟨hr, Std.ExtTreeSet.mem_toList.1 h.2, h.1⟩
    | tail _ h ih => exact ih.tail ⟨(mem_of_transGen_inside ih).2, Std.ExtTreeSet.mem_toList.1 h.2, h.1⟩
  · intro h
    refine ⟨r, List.mem_singleton_self r, ?_⟩
    exact TransGen.mono (fun _ _ h => ⟨h.step, Std.ExtTreeSet.mem_toList.2 h.2.1⟩) _ _ h

end Graph

end Spreadsheet
