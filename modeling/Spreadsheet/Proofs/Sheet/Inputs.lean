import Spreadsheet.Proofs.Sheet.Canonical
import Spreadsheet.Proofs.Sheet.Origin

/-!
# A sheet is a function of its inputs

After a run of edits alone the content of a cell is what its last input made (`content?_after_edits`), and in
topological mode the sheet is settled all along. Contents determine both a settled store and the graph, so
nothing else of the history is left, whatever cycles and errors it went through.
-/

namespace Spreadsheet

namespace Sheet

namespace Op

/-- The operation sets or clears a cell, or fails to for a bad name. -/
def IsEdit : Op → Prop
  | .set .. | .setNamed .. | .clear .. => True
  | _ => False

end Op

variable {s : Sheet} {op : Op} {ops ops' : List Op} {r : Ref}

theorem Op.IsEdit.literals (h : op.IsEdit) : op.literals = [] := by
  cases op with
  | initNamed | importText | recalculate | setMode => cases h
  | _ => rfl

theorem Op.IsEdit.quiet (h : op.IsEdit) : s.Quiet op := by
  intro p hp
  rw [h.literals] at hp
  cases hp

theorem Op.IsEdit.mode (h : op.IsEdit) : (s.apply op).mode = s.mode := by
  cases op with
  | initNamed | importText | recalculate | setMode => cases h
  | set r input => exact mode_set
  | clear r => exact mode_set
  | setNamed name input =>
    show (s.setNamed name input).2.mode = s.mode
    unfold Sheet.setNamed
    split
    · rfl
    · exact mode_set

theorem quietRun_of_edits (h : ∀ op ∈ ops, op.IsEdit) : s.QuietRun ops := by
  induction ops generalizing s with
  | nil => trivial
  | cons op ops ih =>
    exact ⟨(h op List.mem_cons_self).quiet, ih fun op hop => h op (List.mem_cons_of_mem _ hop)⟩

theorem mode_after_edits (h : ∀ op ∈ ops, op.IsEdit) : (s.after ops).mode = s.mode := by
  induction ops generalizing s with
  | nil => rfl
  | cons op ops ih =>
    exact (ih fun op hop => h op (List.mem_cons_of_mem _ hop)).trans (h op List.mem_cons_self).mode

theorem firstLiteral_of_edits (h : ∀ op ∈ ops, op.IsEdit) : firstLiteral ops r = none := by
  refine List.findSome?_eq_none_iff.2 fun op hop => ?_
  rw [Op.literalTo?, (h op hop).literals]
  rfl

namespace Mirrored

theorem content?_after_edits (h : s.Mirrored) (hops : ∀ op ∈ ops, op.IsEdit) :
    (s.after ops).cells.content? r = ((lastInput ops r).map Cell.contentOf).or (s.cells.content? r) := by
  rw [h.content?_after, firstLiteral_of_edits hops, Option.map_none, Option.or_none]

end Mirrored

/-- Two runs of edits in topological mode that end with the same input for each cell leave the same cells
and the same graph. -/
theorem after_congr_of_lastInput (h : ∀ op ∈ ops, op.IsEdit) (h' : ∀ op ∈ ops', op.IsEdit)
    (hlast : ∀ r, lastInput ops r = lastInput ops' r) :
    ((Sheet.empty .topological).after ops).cells = ((Sheet.empty .topological).after ops').cells ∧
      ((Sheet.empty .topological).after ops).graph = ((Sheet.empty .topological).after ops').graph := by
  have hup := (Upheld.empty .topological).after (quietRun_of_edits h)
  have hup' := (Upheld.empty .topological).after (quietRun_of_edits h')
  have hcontent : ((Sheet.empty .topological).after ops).cells.content? =
      ((Sheet.empty .topological).after ops').cells.content? := by
    funext r
    rw [(Mirrored.empty _).content?_after_edits h, (Mirrored.empty _).content?_after_edits h', hlast]
  constructor
  · have hs := hup.settled (mode_after_edits h)
    have hs' := hup'.settled (mode_after_edits h')
    exact hup.mirrored.cells_congr hup'.mirrored hs hs' hcontent
  · exact hup.mirrored.graph_congr hup'.mirrored (Store.formula?_congr hcontent)

/-- A cycle that was closed and broken again leaves no trace. -/
theorem after_congr_of_lastInput_cycle :
    let ops := [.set ⟨0, 0⟩ "=B1", .setNamed "B1" "=A1+1", .clear ⟨0, 1⟩]
    let ops' := [.clear ⟨0, 1⟩, .setNamed "A1" "=B1"]
    ((Sheet.empty .topological).after ops).cells = ((Sheet.empty .topological).after ops').cells ∧
      ((Sheet.empty .topological).after ops).graph = ((Sheet.empty .topological).after ops').graph := by
  refine after_congr_of_lastInput (by simp [Op.IsEdit]) (by simp [Op.IsEdit]) fun r => ?_
  have hA : Ref.ofName? "A1" = some ⟨0, 0⟩ := by decide +kernel
  have hB : Ref.ofName? "B1" = some ⟨0, 1⟩ := by decide +kernel
  simp only [lastInput, List.reverse_cons, List.reverse_nil, List.nil_append, List.cons_append,
    List.findSome?_cons, List.findSome?_nil, Op.inputTo?, Op.input?, hA, hB, Option.map_some,
    Option.bind_some]
  by_cases hr : (⟨0, 0⟩ : Ref) = r
  · subst hr
    decide
  · by_cases hr' : (⟨0, 1⟩ : Ref) = r
    · subst hr'
      decide
    · simp [hr, hr']

end Sheet

end Spreadsheet
