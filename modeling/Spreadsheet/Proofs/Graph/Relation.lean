import Spreadsheet.Proofs.Graph.Edges

/-!
# The relation behind the maps

A graph represents one relation, "the formula of `d` mentions `p`". Which one it is after a run of changes can
be read off the run: the last change of a cell says what the cell mentions (`represents_lastRefs`). A relation is
represented by one graph at most (`Represents.eq`), so two runs leave the same graph if the last changes of all
cells agree. A change goes through two sets, the precedents from before and the new ones; the orders in which it
does so make no difference (`WellFormed.rewire_eq`).
-/

namespace Spreadsheet

namespace Graph

/-- The cell whose precedents are changed. -/
def Change.cell : Change → Ref
  | .setPrecedents cell _ | .clear cell => cell

/-- The precedents that the cell has from then on. -/
def Change.refs : Change → List Ref
  | .setPrecedents _ refs => refs
  | .clear _ => []

/-- What the last change of a cell gives it, nothing if there is none. -/
def lastRefs (changes : List Change) (cell : Ref) : List Ref :=
  ((changes.reverse.find? (·.cell = cell)).map Change.refs).getD []

/-- A change made entry by entry: `old` are the precedents from which the cell is taken, `new` those to which it
is added. -/
def rewire (g : Graph) (cell : Ref) (old new : List Ref) : Graph where
  dependentMap := new.foldl (attach · · cell) (old.foldl (detach · · cell) g.dependentMap)
  precedentMap := if new = [] then g.precedentMap.erase cell else g.precedentMap.insert cell (.ofList new)

/-- Both maps hold the pairs of the relation and no entries without one. -/
structure Represents (g : Graph) (R : Ref → Ref → Prop) : Prop where
  precedents : ∀ d p, p ∈ g.precedents d ↔ R d p
  dependents : ∀ p d, d ∈ g.dependents p ↔ R d p
  precedentMap : NoEmpty g.precedentMap
  dependentMap : NoEmpty g.dependentMap
  isMentioned : ∀ p, g.isMentioned p ↔ ∃ d, R d p
  formulaCount : {d | ∃ p, R d p}.encard = g.formulaCount
  mentionedCount : {p | ∃ d, R d p}.encard = g.mentionedCount

variable {g g' : Graph} {m : RefMap RefSet} {R : Ref → Ref → Prop} {changes : List Change} {c c' : Change}
variable {cell : Ref} {old new refs : List Ref}

theorem apply_eq (g : Graph) (c : Change) : g.apply c = g.setPrecedents c.cell c.refs := by
  cases c <;> rfl

theorem after_append_singleton : g.after (changes ++ [c]) = (g.after changes).apply c := by
  simp [after]

theorem lastRefs_append_singleton :
    lastRefs (changes ++ [c]) cell = if c.cell = cell then c.refs else lastRefs changes cell := by
  unfold lastRefs
  rw [List.reverse_append, List.reverse_singleton, List.singleton_append, List.find?_cons]
  by_cases h : c.cell = cell <;> simp [h]

/-! ### What is represented -/

/-- A map without empty sets has as many entries as there are keys with a member. -/
theorem NoEmpty.encard_eq (h : NoEmpty m) : {r : Ref | ∃ x : Ref, x ∈ m[r]?.getD ∅}.encard = m.size := by
  rw [← Std.ExtTreeMap.length_keys]
  refine encard_eq_length Std.ExtTreeMap.nodup_keys fun r => ?_
  rw [Std.ExtTreeMap.mem_keys, h.mem_iff]
  rfl

theorem WellFormed.represents (h : g.WellFormed) (hR : ∀ d p, p ∈ g.precedents d ↔ R d p) :
    g.Represents R := by
  have hdep : ∀ p d, d ∈ g.dependents p ↔ R d p := fun p d => (h.mirror p d).trans (hR d p)
  refine ⟨hR, hdep, h.precedents, h.dependents, fun p => ?_, ?_, ?_⟩
  · rw [isMentioned, decide_eq_true_iff, h.dependents.mem_iff]
    exact exists_congr (hdep p)
  · simp only [← hR]
    exact h.precedents.encard_eq
  · simp only [← hdep]
    exact h.dependents.encard_eq

theorem Represents.wellFormed (h : g.Represents R) : g.WellFormed where
  mirror a b := (h.dependents a b).trans (h.precedents b a).symm
  dependents := h.dependentMap
  precedents := h.precedentMap

theorem Represents.eq (h : g.Represents R) (h' : g'.Represents R) : g = g' :=
  h.wellFormed.ext h'.wellFormed fun a b => (h.precedents b a).trans (h'.precedents b a).symm

theorem mem_precedents_after :
    ∀ d p, p ∈ (empty.after changes).precedents d ↔ p ∈ lastRefs changes d := by
  induction changes using List.reverseRecOn with
  | nil =>
    intro d p
    simp [after, empty, precedents, lastRefs]
  | append_singleton changes c ih =>
    intro d p
    rw [after_append_singleton, apply_eq, mem_precedents_setPrecedents, lastRefs_append_singleton]
    by_cases h : c.cell = d
    · simp [h]
    · simp [h, Ne.symm h, ih]

theorem represents_lastRefs (changes : List Change) :
    (empty.after changes).Represents fun d p => p ∈ lastRefs changes d :=
  (wellFormed_empty.after changes).represents mem_precedents_after

/-- Of two runs in which each cell is left the same precedents, in whatever order and as often as they are
listed, each leaves the graph that the other one leaves. -/
theorem after_congr {changes' : List Change} (h : ∀ d p, p ∈ lastRefs changes d ↔ p ∈ lastRefs changes' d) :
    empty.after changes = empty.after changes' := by
  have hsame : (fun d p => p ∈ lastRefs changes d) = fun d p => p ∈ lastRefs changes' d := by
    funext d p
    exact propext (h d p)
  exact (represents_lastRefs changes).eq (hsame ▸ represents_lastRefs changes')

/-! ### The order of the visits -/

theorem WellFormed.rewire_eq (h : g.WellFormed) (hold : ∀ p, p ∈ old ↔ p ∈ g.precedents cell)
    (hnew : ∀ p, p ∈ new ↔ p ∈ refs) : g.rewire cell old new = g.setPrecedents cell refs := by
  have hset : (Std.ExtTreeSet.ofList new : RefSet) = .ofList refs :=
    Std.ExtTreeSet.ext_mem fun p => by simp [Std.ExtTreeSet.mem_ofList, hnew]
  have hempty : (Std.ExtTreeSet.ofList refs : RefSet).isEmpty ↔ new = [] := by
    rw [← hset, Std.ExtTreeSet.isEmpty_iff, Std.ExtTreeSet.eq_empty_iff_forall_not_mem]
    simp [Std.ExtTreeSet.mem_ofList, List.eq_nil_iff_forall_not_mem]
  have hdependents : (g.rewire cell old new).dependentMap = (g.setPrecedents cell refs).dependentMap := by
    refine NoEmpty.ext ((h.dependents.foldl_detach _).foldl_attach _)
      (wellFormed_setPrecedents h).dependents fun p d => ?_
    simp only [rewire, setPrecedents, mem_foldl_attach, mem_foldl_detach, Std.ExtTreeSet.mem_toList, hold, ← hset,
      Std.ExtTreeSet.mem_ofList, List.contains_iff_mem]
  have hprecedents : (g.rewire cell old new).precedentMap = (g.setPrecedents cell refs).precedentMap := by
    simp only [rewire, setPrecedents, hset, hempty]
  calc g.rewire cell old new
    _ = ⟨(g.rewire cell old new).dependentMap, (g.rewire cell old new).precedentMap⟩ := rfl
    _ = ⟨(g.setPrecedents cell refs).dependentMap, (g.setPrecedents cell refs).precedentMap⟩ := by
      rw [hdependents, hprecedents]
    _ = g.setPrecedents cell refs := rfl

/-- After any run of changes the two maps hold one relation, given by the last change of each cell. To make the
next change its sets can be visited in any order; changes of different cells commute, and a change that is
made again changes nothing. -/
theorem represents_after (changes : List Change) :
    let g := empty.after changes
    g.Represents (fun d p => p ∈ lastRefs changes d) ∧
      (∀ (c : Change) (old new : List Ref), (∀ p, p ∈ old ↔ p ∈ g.precedents c.cell) → (∀ p, p ∈ new ↔ p ∈ c.refs) →
        g.rewire c.cell old new = g.apply c) ∧
      (∀ c c' : Change, c.cell ≠ c'.cell → (g.apply c).apply c' = (g.apply c').apply c) ∧
      ∀ c : Change, (g.apply c).apply c = g.apply c := by
  intro g
  refine ⟨represents_lastRefs changes, fun c old new hold hnew => ?_, fun c c' hne => ?_, fun c => ?_⟩
  · rw [apply_eq]
    exact (wellFormed_empty.after changes).rewire_eq hold hnew
  · rw [← after_append_singleton, ← after_append_singleton, ← after_append_singleton, ← after_append_singleton]
    refine after_congr fun d p => ?_
    simp only [lastRefs_append_singleton]
    by_cases h : c.cell = d
    · subst h
      simp [hne.symm]
    · simp [h]
  · rw [← after_append_singleton, ← after_append_singleton]
    refine after_congr fun d p => ?_
    simp only [lastRefs_append_singleton]
    by_cases h : c.cell = d <;> simp [h]

end Graph

end Spreadsheet
