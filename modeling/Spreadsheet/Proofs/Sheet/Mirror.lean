import Mathlib.Data.Finset.Card
import Spreadsheet.Proofs.Sheet.Run

/-!
# The graph mirrors the formulas

What runs keep (`Mirrored`), read off the two maps and their counts: a cell is a dependent of another one,
and that one a precedent of it, exactly if the formula stored in the first mentions the second. No map
holds an empty set, so each counts the cells that do have a dependent, or a precedent (`NoEmpty.mem_iff`).
-/

namespace Spreadsheet

/-- The cells that the formula of a cell mentions, in order; none for a literal. -/
def Cell.mentions (c : Cell) : List Ref := (c.formula.map Formula.references).getD []

/-- The cells that the stored formulas mention, as often as they do. -/
def Store.mentions (s : Store) : List Ref := s.toList.flatMap fun (_, c) => c.mentions

namespace Store
variable {s : Store} {a b : Ref}

theorem feeds_iff : s.Feeds a b ↔ ∃ c, s[b]? = some c ∧ a ∈ c.mentions := by
  unfold Feeds formula? Cell.mentions
  cases s[b]? with
  | none => simp
  | some c => rcases c with ⟨v, _ | f⟩ <;> simp

theorem mem_mentions : a ∈ s.mentions ↔ ∃ b, s.Feeds a b := by
  simp only [mentions, List.mem_flatMap, feeds_iff]
  constructor
  · rintro ⟨⟨b, c⟩, hmem, ha⟩
    exact ⟨b, c, Std.ExtTreeMap.mem_toList_iff_getElem?_eq_some.1 hmem, ha⟩
  · rintro ⟨b, c, hb, ha⟩
    exact ⟨(b, c), Std.ExtTreeMap.mem_toList_iff_getElem?_eq_some.2 hb, ha⟩

end Store

namespace Sheet
variable {s : Sheet}

/-- The graph says which stored formula mentions which cell, and nothing else. -/
structure MirrorsFormulas (s : Sheet) : Prop where
  /-- Both maps say the same. -/
  dependents : ∀ d p, d ∈ s.graph.dependents p ↔ p ∈ s.graph.precedents d
  precedents : ∀ d p, p ∈ s.graph.precedents d ↔
    ∃ c f, s.cell? d = some c ∧ c.formula = some f ∧ p ∈ Formula.references f
  dependentMap : Graph.NoEmpty s.graph.dependentMap
  precedentMap : Graph.NoEmpty s.graph.precedentMap
  /-- Each cell that some formula mentions is counted once. -/
  mentionedCount : s.graph.mentionedCount = s.cells.mentions.toFinset.card
  /-- The formulas that mention a cell are counted. -/
  formulaCount : s.graph.formulaCount = s.cells.toList.countP (·.2.mentions ≠ [])

namespace Mirrored

theorem mentionedCount (h : s.Mirrored) : s.graph.mentionedCount = s.cells.mentions.toFinset.card := by
  have hkeys : s.graph.dependentMap.keys.toFinset = s.cells.mentions.toFinset := by
    ext a
    rw [List.mem_toFinset, List.mem_toFinset, Std.ExtTreeMap.mem_keys, h.wellFormed.dependents.mem_iff,
      Store.mem_mentions]
    exact exists_congr fun b => h.edge a b
  rw [Graph.mentionedCount, ← Std.ExtTreeMap.length_keys, ← hkeys,
    List.toFinset_card_of_nodup Std.ExtTreeMap.nodup_keys]

theorem formulaCount (h : s.Mirrored) :
    s.graph.formulaCount = s.cells.toList.countP (·.2.mentions ≠ []) := by
  have hnodup : s.graph.precedentMap.keys.Nodup := Std.ExtTreeMap.nodup_keys
  rw [Graph.formulaCount, ← Std.ExtTreeMap.length_keys]
  refine Store.length_eq_countP (fun c => c.mentions ≠ []) hnodup fun b => ?_
  have hprec : b ∈ s.graph.precedentMap ↔ ∃ a, s.cells.Feeds a b :=
    h.wellFormed.precedents.mem_iff.trans
      (exists_congr fun a => (h.wellFormed.mirror a b).symm.trans (h.edge a b))
  rw [Std.ExtTreeMap.mem_keys, hprec]
  constructor
  · rintro ⟨a, hab⟩
    obtain ⟨c, hc, ha⟩ := Store.feeds_iff.1 hab
    exact ⟨c, hc, decide_eq_true (List.ne_nil_of_mem ha)⟩
  · rintro ⟨c, hc, hne⟩
    obtain ⟨a, ha⟩ := List.exists_mem_of_ne_nil _ (of_decide_eq_true hne)
    exact ⟨a, Store.feeds_iff.2 ⟨c, hc, ha⟩⟩

theorem mirrorsFormulas (h : s.Mirrored) : s.MirrorsFormulas where
  dependents d p := h.wellFormed.mirror p d
  precedents d p := by
    rw [← h.wellFormed.mirror]
    refine (h.edge p d).trans ?_
    simp only [Store.Feeds, Store.formula?, Option.bind_eq_some_iff, cell?]
    constructor
    · rintro ⟨f, ⟨c, hc, hf⟩, hp⟩
      exact ⟨c, f, hc, hf, hp⟩
    · rintro ⟨c, f, hc, hf, hp⟩
      exact ⟨f, ⟨c, hc, hf⟩, hp⟩
  dependentMap := h.wellFormed.dependents
  precedentMap := h.wellFormed.precedents
  mentionedCount := h.mentionedCount
  formulaCount := h.formulaCount

end Mirrored

/-- Whatever operations a run is made of, and whichever of them fail, the graph mirrors the formulas. -/
theorem mirrorsFormulas_after (mode : Sheet.Mode) (ops : List Op) :
    ((Sheet.empty mode).after ops).MirrorsFormulas :=
  (mirrored_after mode ops).mirrorsFormulas

end Sheet

end Spreadsheet
