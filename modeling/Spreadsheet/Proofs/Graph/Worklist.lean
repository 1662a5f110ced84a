import Spreadsheet.Proofs.Graph.Reach
import Spreadsheet.Proofs.Walk

/-!
# The walk with a list of pending cells

What a change reaches can also be collected with a stack of pending cells: a turn takes the top cell and puts
each dependent that was not met before into the result and onto the stack. The first cell is pending and not in
the result, so it is taken twice if it lies on a cycle. `Collecting` holds after any number of turns, whichever
way the dependents of a cell are gone through (`collecting_iterate`). It counts the turns, so the stack runs
out after one turn for the first cell and one for each cell of the result, and not earlier; then the result is
`Graph.affected`.
-/

namespace Spreadsheet
open Relation

/-- The cells to look at, the top of the stack first, and the cells met so far. -/
structure Worklist where
  pending : List Ref
  affected : RefSet

namespace Worklist

def start (r : Ref) : Worklist := ⟨[r], ∅⟩

/-- Meets a cell. -/
def add (w : Worklist) (r : Ref) : Worklist :=
  if r ∈ w.affected then w else ⟨r :: w.pending, w.affected.insert r⟩

/-- Takes the top cell and meets its dependents in the order in which `visit` lists them. -/
def turn (visit : Ref → List Ref) (w : Worklist) : Worklist :=
  match w.pending with
  | [] => w
  | r :: rest => (visit r).foldl add { w with pending := rest }

variable {w : Worklist} {rs : List Ref} {r x : Ref}

theorem mem_affected_add : x ∈ (w.add r).affected ↔ x ∈ w.affected ∨ x = r := by
  unfold add
  split
  · rename_i hr
    exact ⟨.inl, fun h => h.elim id fun he => he ▸ hr⟩
  · exact mem_insert

theorem mem_pending_add : x ∈ (w.add r).pending ↔ x ∈ w.pending ∨ x = r ∧ x ∉ w.affected := by
  unfold add
  split
  · rename_i hr
    refine ⟨.inl, fun h => h.elim id ?_⟩
    rintro ⟨rfl, hx⟩
    exact absurd hr hx
  · rename_i hr
    rw [List.mem_cons, or_comm]
    refine or_congr_right ⟨?_, And.left⟩
    rintro rfl
    exact ⟨rfl, hr⟩

/-- What is put into the result is put onto the stack. -/
theorem length_pending_add :
    (w.add r).pending.length + w.affected.size = w.pending.length + (w.add r).affected.size := by
  unfold add
  split
  · rfl
  · rename_i hr
    rw [size_insert_of_notMem hr, List.length_cons]
    omega

theorem mem_affected_foldl_add : x ∈ (rs.foldl add w).affected ↔ x ∈ w.affected ∨ x ∈ rs := by
  induction rs generalizing w with
  | nil => simp
  | cons r rs ih => rw [List.foldl_cons, ih, mem_affected_add, List.mem_cons, or_assoc]

theorem mem_pending_foldl_add :
    x ∈ (rs.foldl add w).pending ↔ x ∈ w.pending ∨ x ∈ rs ∧ x ∉ w.affected := by
  induction rs generalizing w with
  | nil => simp
  | cons r rs ih =>
    rw [List.foldl_cons, ih, mem_pending_add, mem_affected_add, List.mem_cons]
    tauto

theorem length_pending_foldl_add (w : Worklist) (rs : List Ref) :
    (rs.foldl add w).pending.length + w.affected.size = w.pending.length + (rs.foldl add w).affected.size := by
  induction rs generalizing w with
  | nil => rfl
  | cons r rs ih =>
    have hadd := length_pending_add (w := w) (r := r)
    have hrest := ih (w.add r)
    rw [List.foldl_cons]
    omega

end Worklist

namespace Graph
open Worklist
variable {g : Graph} {visit : Ref → List Ref} {w : Worklist} {first x : Ref} {k : Nat}

/-- What holds after `k` turns of a walk that began with the cell `first`. -/
structure Collecting (g : Graph) (first : Ref) (k : Nat) (w : Worklist) : Prop where
  reached : ∀ x ∈ w.affected, TransGen g.Edge first x
  known : ∀ x ∈ w.pending, x = first ∨ x ∈ w.affected
  /-- The dependents of a cell are in the result when the cell is no longer pending. -/
  done : ∀ x, x = first ∨ x ∈ w.affected → x ∈ w.pending ∨ ∀ y, g.Edge x y → y ∈ w.affected
  /-- Each cell of the result and the first cell have one turn. -/
  turns : w.pending.length = w.affected.size + 1 - k

theorem collecting_start : g.Collecting first 0 (.start first) where
  reached x hx := absurd hx Std.ExtTreeSet.not_mem_empty
  known x hx := .inl (List.mem_singleton.1 hx)
  done x hx := by
    obtain rfl := hx.resolve_right Std.ExtTreeSet.not_mem_empty
    exact .inl (List.mem_singleton_self x)
  turns := rfl

theorem Collecting.turn (hvisit : ∀ r x, x ∈ visit r ↔ g.Edge r x) (h : g.Collecting first k w) :
    g.Collecting first (k + 1) (w.turn visit) := by
  obtain ⟨pending, affected⟩ := w
  obtain ⟨hreached, hknown, hdone, hturns⟩ := h
  cases pending with
  | nil =>
    have hturns : 0 = affected.size + 1 - k := hturns
    exact ⟨hreached, hknown, hdone, show 0 = affected.size + 1 - (k + 1) by omega⟩
  | cons r rest =>
    show g.Collecting first (k + 1) ((visit r).foldl add ⟨rest, affected⟩)
    have hr : ReflTransGen g.Edge first r := by
      rcases hknown r List.mem_cons_self with rfl | hr
      · exact .refl
      · exact (hreached r hr).to_reflTransGen
    refine ⟨fun x hx => ?_, fun x hx => ?_, fun x hx => ?_, ?_⟩
    · rcases mem_affected_foldl_add.1 hx with hx | hx
      · exact hreached x hx
      · exact .tail' hr ((hvisit r x).1 hx)
    · rw [mem_affected_foldl_add]
      rcases mem_pending_foldl_add.1 hx with hx | hx
      · exact (hknown x (List.mem_cons_of_mem r hx)).imp_right .inl
      · exact .inr (.inr hx.1)
    · simp only [mem_affected_foldl_add, mem_pending_foldl_add] at hx ⊢
      by_cases hold : x = first ∨ x ∈ affected
      · rcases hdone x hold with hx | hx
        · rcases List.mem_cons.1 hx with rfl | hx
          -- the cell of this turn: all its dependents have just been met
          · exact .inr fun y hy => .inr ((hvisit x y).2 hy)
          · exact .inl (.inl hx)
        · exact .inr fun y hy => .inl (hx y hy)
      · obtain ⟨-, hnew⟩ := not_or.1 hold
        rcases hx with rfl | hx | hx
        · exact absurd (.inl rfl) hold
        · exact absurd hx hnew
        · exact .inl (.inr ⟨hx, hnew⟩)
    · have hlength := length_pending_foldl_add ⟨rest, affected⟩ (visit r)
      have hturns : rest.length + 1 = affected.size + 1 - k := hturns
      simp only at hlength ⊢
      omega

theorem collecting_iterate (hvisit : ∀ r x, x ∈ visit r ↔ g.Edge r x) (first : Ref) (k : Nat) :
    g.Collecting first k ((turn visit)^[k] (.start first)) := by
  induction k with
  | zero => exact collecting_start
  | succ k ih =>
    rw [Function.iterate_succ_apply']
    exact ih.turn hvisit

theorem Collecting.mem_iff (h : g.Collecting first k w) (hend : w.pending = []) :
    x ∈ w.affected ↔ TransGen g.Edge first x := by
  refine ⟨h.reached x, fun hx => ?_⟩
  have hclosed : ∀ a b, a = first ∨ a ∈ w.affected → g.Edge a b → b ∈ w.affected := fun a b ha => by
    refine ((h.done a ha).resolve_left ?_) b
    simp [hend]
  induction hx with
  | single hx => exact hclosed _ _ (.inl rfl) hx
  | tail _ hx ih => exact hclosed _ _ (.inr ih) hx

theorem WellFormed.pending_eq_nil_iff (h : g.WellFormed) (hw : g.Collecting first k w) :
    w.pending = [] ↔ (g.affected first).size < k := by
  have hsub : w.affected.size ≤ (g.affected first).size :=
    size_le_size fun x hx => h.mem_affected.2 (hw.reached x hx)
  have hturns := hw.turns
  constructor
  · intro hend
    have hsup : (g.affected first).size ≤ w.affected.size :=
      size_le_size fun x hx => (hw.mem_iff hend).2 (h.mem_affected.1 hx)
    rw [hend, List.length_nil] at hturns
    omega
  · intro hk
    exact List.eq_nil_of_length_eq_zero (by omega)

/-- On a graph that any run of changes has left, the walk over pending cells ends, in as many turns as it has
cells to take and in whatever order it meets the dependents of a cell. Its result holds the cells to which
edges lead from the first cell, and no others. -/
theorem worklist_collects_affected (changes : List Change) (first : Ref) :
    let g := empty.after changes
    (∀ visit : Ref → List Ref, (∀ r x, x ∈ visit r ↔ x ∈ g.dependents r) → ∀ k,
      let w := (turn visit)^[k] (.start first)
      (w.pending = [] ↔ (g.affected first).size < k) ∧ (w.pending = [] → w.affected = g.affected first)) ∧
    (∀ x, x ∈ g.affected first ↔ ∃ cells ≠ [], Walk g.Edge first cells x) ∧
    (first ∈ g.affected first ↔ TransGen g.Edge first first) ∧
    (∀ x ∈ g.affected first, ∀ y ∈ g.dependents x, y ∈ g.affected first) ∧
    ∀ x ∈ g.affected first, ∀ y ∈ g.affected x, y ∈ g.affected first := by
  intro g
  have h : g.WellFormed := wellFormed_empty.after changes
  refine ⟨fun visit hvisit k => ?_, fun x => ?_, h.mem_affected, fun x hx y hy => h.affected_closed hx hy,
    fun x hx y hy => ?_⟩
  · have hw := collecting_iterate hvisit first k
    refine ⟨h.pending_eq_nil_iff hw, fun hend => Std.ExtTreeSet.ext_mem fun x => ?_⟩
    rw [hw.mem_iff hend, h.mem_affected]
  · rw [h.mem_affected]
    refine ⟨exists_walk_of_transGen, ?_⟩
    rintro ⟨cells, hne, hwalk⟩
    exact hwalk.transGen hne
  · exact h.mem_affected.2 ((h.mem_affected.1 hx).trans (h.mem_affected.1 hy))

end Graph

end Spreadsheet
