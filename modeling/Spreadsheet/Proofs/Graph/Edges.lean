import Mathlib.Data.Set.Card
import Spreadsheet.Graph

/-!
# The edges of a dependency graph

The two maps of a graph are two views of one relation, `Edge`. `WellFormed` says so and that neither map
keeps an empty set. `setPrecedents` keeps a graph well formed and changes only the edges that enter its
cell (`edge_setPrecedents`), so every run of changes leaves a well-formed graph (`WellFormed.after`); a
well-formed graph is determined by its precedents (`WellFormed.ext`).
-/

namespace Spreadsheet

/-! ### Finite sets of references -/

section
variable {s t : RefSet} {a b r : Ref} {p : Ref → Bool}

theorem nodup_toList : s.toList.Nodup :=
  Std.ExtTreeSet.distinct_toList.imp Std.ReflCmp.ne_of_cmp_ne_eq

theorem mem_erase : a ∈ s.erase b ↔ a ∈ s ∧ a ≠ b := by
  rw [Std.ExtTreeSet.mem_erase, ne_eq, Std.LawfulEqCmp.compare_eq_iff_eq, and_comm, ne_comm]

theorem mem_insert : a ∈ s.insert b ↔ a ∈ s ∨ a = b := by
  rw [Std.ExtTreeSet.mem_insert, Std.LawfulEqCmp.compare_eq_iff_eq, or_comm, eq_comm]

theorem mem_filter : r ∈ s.filter p ↔ r ∈ s ∧ p r := by
  simp [Std.ExtTreeSet.mem_filter]

theorem size_erase_lt (h : r ∈ s) : (s.erase r).size < s.size := by
  have hpos : 0 < s.size := Nat.pos_of_ne_zero fun hzero => by
    rw [← Std.ExtTreeSet.eq_empty_iff_size_eq_zero] at hzero
    exact Std.ExtTreeSet.not_mem_empty (hzero ▸ h)
  rw [Std.ExtTreeSet.size_erase, if_pos (Std.ExtTreeSet.mem_iff_contains.1 h)]
  omega

theorem size_insert_of_notMem (h : r ∉ s) : (s.insert r).size = s.size + 1 := by
  rw [Std.ExtTreeSet.size_insert, if_neg (mt Std.ExtTreeSet.mem_iff_contains.2 h)]

theorem size_le_size (h : ∀ r ∈ s, r ∈ t) : s.size ≤ t.size := by
  rw [← Std.ExtTreeSet.length_toList, ← Std.ExtTreeSet.length_toList]
  refine (List.subperm_of_subset nodup_toList fun r hr => ?_).length_le
  exact Std.ExtTreeSet.mem_toList.2 (h r (Std.ExtTreeSet.mem_toList.1 hr))

end

/-- A set has as many members as a list that names each of them once. -/
theorem encard_eq_length {α : Type*} {S : Set α} {l : List α} (hnodup : l.Nodup)
    (hmem : ∀ x, x ∈ l ↔ x ∈ S) : S.encard = l.length := by
  classical
  have hset : S = l.toFinset := Set.ext fun x => by simp [hmem]
  rw [hset, Set.encard_coe_eq_coe_finsetCard, List.toFinset_card_of_nodup hnodup]

namespace Graph
variable {g g' : Graph} {m : RefMap RefSet} {key member r x : Ref}

/-- The formula of `b` mentions `a`. -/
def Edge (g : Graph) (a b : Ref) : Prop := b ∈ g.dependents a

/-- No entry of the map is an empty set. -/
def NoEmpty (m : RefMap RefSet) : Prop := ∀ r : Ref, m[r]? ≠ some ∅

/-- The two maps mirror each other and hold no empty sets. -/
structure WellFormed (g : Graph) : Prop where
  mirror : ∀ a b, b ∈ g.dependents a ↔ a ∈ g.precedents b
  dependents : NoEmpty g.dependentMap
  precedents : NoEmpty g.precedentMap

theorem nodup_formulaCells : g.formulaCells.Nodup := Std.ExtTreeMap.nodup_keys

theorem wellFormed_empty : empty.WellFormed where
  mirror a b := by simp [empty, Graph.dependents, Graph.precedents]
  dependents r := by simp [empty]
  precedents r := by simp [empty]

theorem NoEmpty.mem_iff (h : NoEmpty m) : r ∈ m ↔ ∃ x, x ∈ m[r]?.getD ∅ := by
  rw [Std.ExtTreeMap.mem_iff_isSome_getElem?]
  have hr := h r
  cases hs : m[r]? with
  | none => simp
  | some s =>
    have hne : s ≠ ∅ := fun he => hr (he ▸ hs)
    simpa [Std.ExtTreeSet.eq_empty_iff_forall_not_mem] using hne

/-! ### One entry -/

theorem getElem?_attach :
    (attach m key member)[r]? = if key = r then some ((m[key]?.getD ∅).insert member) else m[r]? := by
  simp only [attach, Std.ExtTreeMap.getElem?_alter, Std.LawfulEqCmp.compare_eq_iff_eq]

theorem getElem?_detach :
    (detach m key member)[r]? =
      if key = r then (m[key]?.map (·.erase member)).filter (!·.isEmpty) else m[r]? := by
  simp only [detach, Std.ExtTreeMap.getElem?_alter, Std.LawfulEqCmp.compare_eq_iff_eq]

theorem mem_attach :
    x ∈ (attach m key member)[r]?.getD ∅ ↔ x ∈ m[r]?.getD ∅ ∨ r = key ∧ x = member := by
  rw [getElem?_attach]
  by_cases h : key = r
  · subst h
    simp only [↓reduceIte, Option.getD_some, Std.ExtTreeSet.mem_insert, Std.LawfulEqCmp.compare_eq_iff_eq,
      true_and]
    rw [or_comm, eq_comm]
  · simp [h, Ne.symm h]

theorem mem_detach :
    x ∈ (detach m key member)[r]?.getD ∅ ↔ x ∈ m[r]?.getD ∅ ∧ ¬ (r = key ∧ x = member) := by
  rw [getElem?_detach]
  by_cases h : key = r
  · subst h
    cases hm : m[key]? with
    | none => simp
    | some s =>
      have hx : x ∈ s.erase member ↔ x ∈ s ∧ ¬ x = member := by
        rw [Std.ExtTreeSet.mem_erase, ne_eq, Std.LawfulEqCmp.compare_eq_iff_eq, and_comm, eq_comm]
      -- the entry goes with its last member, and so does nothing else
      have hkeep : ((some (s.erase member)).filter (!·.isEmpty)).getD ∅ = s.erase member := by
        by_cases he : (s.erase member).isEmpty
        · rw [Option.filter_some_neg (by simpa using he), Std.ExtTreeSet.isEmpty_iff.1 he]; rfl
        · rw [Option.filter_some_pos (by simpa using he)]; rfl
      simp only [↓reduceIte, Option.map_some, Option.getD_some, true_and]
      rw [hkeep, hx]
  · simp [h, Ne.symm h]

theorem NoEmpty.attach (h : NoEmpty m) : NoEmpty (attach m key member) := by
  intro r
  rw [getElem?_attach]
  split
  · intro he
    have := (Std.ExtTreeSet.mem_insert_self : member ∈ (m[key]?.getD ∅).insert member)
    rw [Option.some.inj he] at this
    exact Std.ExtTreeSet.not_mem_empty this
  · exact h r

theorem NoEmpty.detach (h : NoEmpty m) : NoEmpty (detach m key member) := by
  intro r
  rw [getElem?_detach]
  split
  · intro he
    have := (Option.filter_eq_some_iff.1 he).2
    simp at this
  · exact h r

/-! ### The entries of one member -/

theorem mem_foldl_attach (keys : List Ref) :
    x ∈ (keys.foldl (attach · · member) m)[r]?.getD ∅ ↔ x ∈ m[r]?.getD ∅ ∨ r ∈ keys ∧ x = member := by
  induction keys generalizing m with
  | nil => simp
  | cons key keys ih =>
    rw [List.foldl_cons, ih, mem_attach, List.mem_cons, or_assoc, or_and_right]

theorem mem_foldl_detach (keys : List Ref) :
    x ∈ (keys.foldl (detach · · member) m)[r]?.getD ∅ ↔ x ∈ m[r]?.getD ∅ ∧ ¬ (r ∈ keys ∧ x = member) := by
  induction keys generalizing m with
  | nil => simp
  | cons key keys ih =>
    rw [List.foldl_cons, ih, mem_detach, List.mem_cons, or_and_right, not_or, and_assoc]

theorem NoEmpty.foldl_attach (h : NoEmpty m) (keys : List Ref) :
    NoEmpty (keys.foldl (Graph.attach · · member) m) := by
  induction keys generalizing m with
  | nil => exact h
  | cons key keys ih => exact ih h.attach

theorem NoEmpty.foldl_detach (h : NoEmpty m) (keys : List Ref) :
    NoEmpty (keys.foldl (Graph.detach · · member) m) := by
  induction keys generalizing m with
  | nil => exact h
  | cons key keys ih => exact ih h.detach

/-! ### New precedents -/

variable {a b cell : Ref} {refs : List Ref}

theorem mem_precedents_setPrecedents :
    a ∈ (g.setPrecedents cell refs).precedents b ↔ if b = cell then a ∈ refs else a ∈ g.precedents b := by
  have hmem : a ∈ (Std.ExtTreeSet.ofList refs : RefSet) ↔ a ∈ refs := by simp [Std.ExtTreeSet.mem_ofList]
  simp only [setPrecedents, Graph.precedents]
  by_cases hempty : (Std.ExtTreeSet.ofList refs : RefSet).isEmpty
  · have hnot : a ∉ refs := by
      rw [← hmem, Std.ExtTreeSet.isEmpty_iff.1 hempty]
      exact Std.ExtTreeSet.not_mem_empty
    simp only [hempty, ↓reduceIte, Std.ExtTreeMap.getElem?_erase, Std.LawfulEqCmp.compare_eq_iff_eq]
    by_cases hb : b = cell
    · simp [hb, hnot]
    · simp [hb, Ne.symm hb]
  · simp only [hempty, Bool.false_eq_true, ↓reduceIte, Std.ExtTreeMap.getElem?_insert,
      Std.LawfulEqCmp.compare_eq_iff_eq]
    by_cases hb : b = cell
    · simp only [hb, ↓reduceIte, Option.getD_some, hmem]
    · simp [hb, Ne.symm hb]

theorem mem_dependents_setPrecedents (h : g.WellFormed) :
    b ∈ (g.setPrecedents cell refs).dependents a ↔ if b = cell then a ∈ refs else b ∈ g.dependents a := by
  have hmem : a ∈ (Std.ExtTreeSet.ofList refs : RefSet).toList ↔ a ∈ refs := by
    simp [Std.ExtTreeSet.mem_ofList]
  have hold : a ∈ (g.precedents cell).toList ↔ cell ∈ g.dependents a := by
    rw [Std.ExtTreeSet.mem_toList, h.mirror]
  simp only [setPrecedents, Graph.dependents]
  rw [mem_foldl_attach, mem_foldl_detach, hmem, hold]
  by_cases hb : b = cell
  · subst hb
    simp [Graph.dependents]
  · simp [hb]

theorem wellFormed_setPrecedents (h : g.WellFormed) : (g.setPrecedents cell refs).WellFormed where
  mirror a b := by
    rw [mem_dependents_setPrecedents h, mem_precedents_setPrecedents, h.mirror]
  dependents := (h.dependents.foldl_detach _).foldl_attach _
  precedents r := by
    simp only [setPrecedents]
    split
    · rw [Std.ExtTreeMap.getElem?_erase]
      split
      · simp
      · exact h.precedents r
    · rename_i hempty
      rw [Std.ExtTreeMap.getElem?_insert]
      split
      · intro he
        exact hempty (Std.ExtTreeSet.isEmpty_iff.2 (Option.some.inj he))
      · exact h.precedents r

/-- Only the edges that enter the cell change. -/
theorem edge_setPrecedents (h : g.WellFormed) :
    (g.setPrecedents cell refs).Edge a b ↔ if b = cell then a ∈ refs else g.Edge a b :=
  mem_dependents_setPrecedents h

/-! ### What determines a graph -/

theorem NoEmpty.ext {m' : RefMap RefSet} (h : NoEmpty m) (h' : NoEmpty m')
    (heq : ∀ r x : Ref, x ∈ m[r]?.getD ∅ ↔ x ∈ m'[r]?.getD ∅) : m = m' := by
  refine Std.ExtTreeMap.ext_getElem? fun r => ?_
  have hr : m[r]?.getD ∅ = m'[r]?.getD ∅ := Std.ExtTreeSet.ext_mem fun x => heq r x
  have hm := h r
  have hm' := h' r
  cases hs : m[r]? <;> cases hs' : m'[r]? <;> simp_all

theorem WellFormed.ext (h : g.WellFormed) (h' : g'.WellFormed)
    (heq : ∀ a b, a ∈ g.precedents b ↔ a ∈ g'.precedents b) : g = g' := by
  have hd : g.dependentMap = g'.dependentMap := NoEmpty.ext h.dependents h'.dependents fun a b =>
    (h.mirror a b).trans ((heq a b).trans (h'.mirror a b).symm)
  have hp : g.precedentMap = g'.precedentMap := NoEmpty.ext h.precedents h'.precedents fun b a => heq a b
  cases g; cases g'
  simp_all

/-! ### Runs of changes -/

/-- A change of the precedents of a cell. -/
inductive Change where
  | setPrecedents (cell : Ref) (refs : List Ref)
  | clear (cell : Ref)

def apply (g : Graph) : Change → Graph
  | .setPrecedents cell refs => g.setPrecedents cell refs
  | .clear cell => g.clear cell

def after (g : Graph) (changes : List Change) : Graph := changes.foldl apply g

theorem WellFormed.apply (h : g.WellFormed) (change : Change) : (g.apply change).WellFormed := by
  cases change with
  | setPrecedents cell refs => exact wellFormed_setPrecedents h
  | clear cell => exact wellFormed_setPrecedents h

theorem WellFormed.after (h : g.WellFormed) (changes : List Change) : (g.after changes).WellFormed := by
  induction changes generalizing g with
  | nil => exact h
  | cons change changes ih => exact ih (h.apply change)

end Graph

end Spreadsheet
