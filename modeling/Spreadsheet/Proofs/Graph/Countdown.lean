import Spreadsheet.Proofs.Graph.Plan

/-!
# Plans by counting

A round of a plan can be made without a look at all cells in each step: each cell has a counter of the
precedents that it still waits for, a cell that is taken counts its dependents down, and a cell whose
counter falls to zero is ready. `countdown?` does so and fails if a counter would fall below zero.
`Counts` says what the counters mean throughout a round; by it, counting takes the same cells as
`takeReady` (`Counts.countdown?_eq`), in whatever order the dependents of a cell are visited. Hence neither
the counters nor the check that the second round leaves nothing can fail (`WellFormed.countedPlan?_eq`).
-/

namespace Spreadsheet
open Relation

/-- The counters of a round. -/
structure Tally where
  /-- The number of precedents that a cell waits for. -/
  waits : RefMap Nat
  /-- The cells that wait for none and have not been taken. -/
  ready : RefSet

/-- Counts a cell down. One without a counter is passed over, and a counter at zero cannot go down. -/
def Tally.release? (t : Tally) (r : Ref) : Option Tally :=
  match t.waits[r]? with
  | none => some t
  | some 0 => none
  | some (n + 1) => some ⟨t.waits.insert r n, if n = 0 then t.ready.insert r else t.ready⟩

namespace Graph

/-- The number of precedents of a cell among some cells. -/
def waitsIn (g : Graph) (cells : RefSet) (r : Ref) : Nat := ((g.precedents r).filter (· ∈ cells)).size

/-- The counters at the start of a round. -/
def tally (g : Graph) (cells : RefSet) : Tally where
  waits := .ofList (cells.toList.map fun r => (r, g.waitsIn cells r))
  ready := cells.filter (g.waitsIn cells · = 0)

/-- Takes the least ready cell and counts its dependents down, as long as there is one. `visit` says in which
order the dependents of a cell are visited. Fails if a counter would fall below zero, or if a cell that was
taken is ready again. -/
def countdown? (visit : Ref → List Ref) (t : Tally) (left : RefSet) : Option (List Ref × RefSet) :=
  match t.ready.min? with
  | none => some ([], left)
  | some r =>
    if _h : r ∈ left then do
      let t ← (visit r).foldlM Tally.release? { t with ready := t.ready.erase r }
      let (order, left) ← countdown? visit t (left.erase r)
      some (r :: order, left)
    else none
termination_by left.size
decreasing_by exact size_erase_lt _h

/-- The plan for a set of cells, made by counting. Fails if a round does, or if the second round leaves
something. -/
def countedPlan? (g : Graph) (visit : Ref → List Ref) (cells : RefSet) : Option Plan := do
  let (order, left) ← countdown? visit (g.tally cells) cells
  if left.isEmpty then some ⟨order, []⟩
  else
    let cycles := left.toList.filter (g.onCycleIn left)
    let behind : RefSet := .ofList (left.toList.filter (!cycles.contains ·))
    let (rest, unordered) ← countdown? visit (g.tally behind) behind
    if unordered.isEmpty then some ⟨order ++ rest, cycles⟩ else none

end Graph

/-! ### Counting down -/

/-- What counting down some cells does. -/
structure Tally.Released (t : Tally) (rs : List Ref) (t' : Tally) : Prop where
  waits : ∀ x : Ref, t'.waits[x]? = if x ∈ rs then t.waits[x]?.map (· - 1) else t.waits[x]?
  ready : ∀ x, x ∈ t'.ready ↔ x ∈ t.ready ∨ x ∈ rs ∧ t.waits[x]? = some 1

namespace Tally
variable {t t' : Tally} {r : Ref} {rs : List Ref}

theorem exists_release? (h : t.waits[r]? ≠ some 0) : ∃ t', t.release? r = some t' ∧ t.Released [r] t' := by
  unfold release?
  split
  · next hnone =>
    refine ⟨t, rfl, fun x => ?_, fun x => ?_⟩
    · by_cases hx : x = r
      · simp [hx, hnone]
      · simp [hx]
    · by_cases hx : x = r
      · simp [hx, hnone]
      · simp [hx]
  · next hzero => exact absurd hzero h
  · next n hn =>
    refine ⟨_, rfl, fun x => ?_, fun x => ?_⟩
    · by_cases hx : x = r
      · simp [hx, hn]
      · simp [hx, Ne.symm hx, Std.ExtTreeMap.getElem?_insert]
    · by_cases hx : x = r
      · by_cases hzero : n = 0 <;> simp [hx, hn, hzero]
      · by_cases hzero : n = 0 <;> simp [hx, Ne.symm hx, hzero]

theorem exists_foldlM_release? (hnodup : rs.Nodup) (h : ∀ r ∈ rs, t.waits[r]? ≠ some 0) :
    ∃ t', rs.foldlM release? t = some t' ∧ t.Released rs t' := by
  induction rs generalizing t with
  | nil => exact ⟨t, rfl, by simp, by simp⟩
  | cons r rs ih =>
    obtain ⟨hr, hnodup⟩ := List.nodup_cons.1 hnodup
    obtain ⟨t₁, h₁, hreleased₁⟩ := exists_release? (h r List.mem_cons_self)
    -- the counters of the other cells are as they were
    have hwaits : ∀ x, x ≠ r → t₁.waits[x]? = t.waits[x]? := fun x hx => by
      rw [hreleased₁.waits, if_neg (by simpa using hx)]
    have hrest : ∀ x ∈ rs, t₁.waits[x]? ≠ some 0 := fun x hx => by
      rw [hwaits x (ne_of_mem_of_not_mem hx hr)]
      exact h x (List.mem_cons_of_mem _ hx)
    obtain ⟨t', h', hreleased'⟩ := ih hnodup hrest
    refine ⟨t', by rw [List.foldlM_cons, h₁]; exact h', fun x => ?_, fun x => ?_⟩
    · rw [hreleased'.waits, hreleased₁.waits]
      by_cases hx : x = r
      · simp [hx, hr]
      · simp [hx]
    · rw [hreleased'.ready, hreleased₁.ready]
      by_cases hx : x = r
      · simp [hx, hr]
      · simp [hx, hwaits x hx]

end Tally

/-! ### What the counters mean -/

namespace Graph
variable {g : Graph} {visit : Ref → List Ref} {cells left : RefSet} {t : Tally} {r x : Ref}

theorem waitsIn_eq_zero_iff : g.waitsIn left x = 0 ↔ g.isBlocked left x = false := by
  rw [waitsIn, ← Std.ExtTreeSet.eq_empty_iff_size_eq_zero, Std.ExtTreeSet.eq_empty_iff_forall_not_mem,
    isBlocked, List.any_eq_false]
  simp only [mem_filter, Std.ExtTreeSet.mem_toList, not_and]

/-- A cell that is taken is one precedent less to wait for. -/
theorem waitsIn_erase (hr : r ∈ left) :
    g.waitsIn (left.erase r) x = if r ∈ g.precedents x then g.waitsIn left x - 1 else g.waitsIn left x := by
  have herase : (g.precedents x).filter (· ∈ left.erase r) = ((g.precedents x).filter (· ∈ left)).erase r := by
    refine Std.ExtTreeSet.ext_mem fun p => ?_
    simp only [mem_filter, mem_erase, decide_eq_true_iff, and_assoc]
  have hmem : ((g.precedents x).filter (· ∈ left)).contains r ↔ r ∈ g.precedents x := by
    rw [← Std.ExtTreeSet.mem_iff_contains, mem_filter]
    simp [hr]
  rw [waitsIn, herase, Std.ExtTreeSet.size_erase]
  simp only [hmem]
  rfl

theorem isBlocked_erase (h : g.isBlocked left x = false) : g.isBlocked (left.erase r) x = false := by
  simp only [isBlocked, List.any_eq_false, decide_eq_true_iff, mem_erase, not_and'] at h ⊢
  exact fun p hp _ => h p hp

/-- In a round over `cells` of which `left` have not been taken: each counter is the number of precedents
left, the ready cells are those that wait for none, and no cell was taken before its precedents. -/
structure Counts (g : Graph) (cells left : RefSet) (t : Tally) : Prop where
  waits : ∀ r : Ref, t.waits[r]? = if r ∈ cells then some (g.waitsIn left r) else none
  ready : t.ready = left.filter (!g.isBlocked left ·)
  taken : ∀ r ∈ cells, r ∉ left → g.isBlocked left r = false
  sub : ∀ r ∈ left, r ∈ cells

theorem counts_tally (g : Graph) (cells : RefSet) : g.Counts cells cells (g.tally cells) where
  waits r := by
    have hdistinct : cells.toList.Pairwise fun a b => ¬ compare a b = .eq := Std.ExtTreeSet.distinct_toList
    by_cases hr : r ∈ cells
    · rw [if_pos hr]
      refine Std.ExtTreeMap.getElem?_ofList_of_mem Std.ReflCmp.compare_self (List.pairwise_map.2 hdistinct) ?_
      exact List.mem_map_of_mem (Std.ExtTreeSet.mem_toList.2 hr)
    · rw [if_neg hr]
      refine Std.ExtTreeMap.getElem?_ofList_of_contains_eq_false ?_
      simpa [Function.comp_def] using hr
  ready := by
    refine Std.ExtTreeSet.ext_mem fun r => ?_
    simp only [tally, mem_filter, decide_eq_true_iff, waitsIn_eq_zero_iff, Bool.not_eq_true']
  taken r hr hno := absurd hr hno
  sub r hr := hr

namespace Counts

theorem mem_ready (h : g.Counts cells left t) : r ∈ t.ready ↔ r ∈ left ∧ g.isBlocked left r = false := by
  rw [h.ready, mem_filter, Bool.not_eq_true']

theorem min?_ready (h : g.Counts cells left t) :
    t.ready.min? = left.toList.find? (!g.isBlocked left ·) := by
  rw [h.ready, Std.ExtTreeSet.min?_eq_head?_toList, Std.ExtTreeSet.toList_filter, List.head?_filter]

/-- A dependent of a ready cell waits, so it is another cell and its counter is above zero. -/
theorem waiting_of_ready (h : g.Counts cells left t) (hg : g.WellFormed) (hr : r ∈ t.ready)
    (hrx : r ∈ g.precedents x) : g.waitsIn left x ≠ 0 ∧ x ≠ r ∧ (x ∈ cells → x ∈ left) := by
  obtain ⟨hleft, hready⟩ := h.mem_ready.1 hr
  have hblocked : g.isBlocked left x := hg.isBlocked_iff.2 ⟨r, hleft, (hg.mirror r x).2 hrx⟩
  refine ⟨fun hzero => ?_, ?_, fun hx => ?_⟩
  · cases hblocked.symm.trans (waitsIn_eq_zero_iff.1 hzero)
  · rintro rfl
    cases hblocked.symm.trans hready
  · by_contra hno
    cases hblocked.symm.trans (h.taken x hx hno)

/-- To take a ready cell and count its dependents down keeps the meaning of the counters. -/
theorem exists_release (h : g.Counts cells left t) (hg : g.WellFormed)
    (hvisit : (visit r).Perm (g.dependents r).toList) (hr : r ∈ t.ready) :
    ∃ t', (visit r).foldlM Tally.release? { t with ready := t.ready.erase r } = some t' ∧
      g.Counts cells (left.erase r) t' := by
  have hdependent : ∀ x, x ∈ visit r ↔ r ∈ g.precedents x := fun x => by
    rw [hvisit.mem_iff, Std.ExtTreeSet.mem_toList, hg.mirror]
  have hleft : r ∈ left := (h.mem_ready.1 hr).1
  have hpos : ∀ x ∈ visit r, t.waits[x]? ≠ some 0 := by
    intro x hx
    rw [h.waits]
    split
    · exact fun hzero => (h.waiting_of_ready hg hr ((hdependent x).1 hx)).1 (Option.some.inj hzero)
    · nofun
  obtain ⟨t', ht', hreleased⟩ :=
    Tally.exists_foldlM_release? (t := { t with ready := t.ready.erase r }) (hvisit.nodup_iff.2 nodup_toList) hpos
  refine ⟨t', ht', fun x => ?_, Std.ExtTreeSet.ext_mem fun x => ?_, fun x hx hno => ?_, fun x hx => ?_⟩
  · rw [hreleased.waits, h.waits, waitsIn_erase hleft]
    simp only [hdependent]
    split <;> split <;> rfl
  · rw [hreleased.ready, mem_filter, mem_erase, mem_erase, h.mem_ready, Bool.not_eq_true',
      ← waitsIn_eq_zero_iff, ← waitsIn_eq_zero_iff, waitsIn_erase hleft, hdependent, h.waits]
    by_cases hrx : r ∈ g.precedents x
    · -- it becomes ready if the cell taken is the last one that it waits for
      obtain ⟨hne, hxr, hx⟩ := h.waiting_of_ready hg hr hrx
      by_cases hcells : x ∈ cells
      · simp only [hne, and_false, false_and, hrx, hcells, ↓reduceIte, true_and, false_or, hx hcells,
          Option.some.injEq, hxr, ne_eq, not_false_eq_true]
        omega
      · have hno : x ∉ left := mt (h.sub x) hcells
        simp [hcells, hno]
    · simp only [hrx, false_and, or_false, ↓reduceIte]
      tauto
  · refine isBlocked_erase ?_
    by_cases hxr : x = r
    · exact hxr ▸ (h.mem_ready.1 hr).2
    · exact h.taken x hx fun hmem => hno (mem_erase.2 ⟨hmem, hxr⟩)
  · exact h.sub x (mem_erase.1 hx).1

/-- Counting takes what a look at all cells takes. -/
theorem countdown?_eq (h : g.Counts cells left t) (hg : g.WellFormed)
    (hvisit : ∀ r, (visit r).Perm (g.dependents r).toList) :
    countdown? visit t left = some (g.takeReady left) := by
  fun_induction takeReady g left generalizing t with
  | case1 left r hfind order rest hrest ih =>
    have hmin : t.ready.min? = some r := h.min?_ready.trans hfind
    have hr : r ∈ t.ready := Std.ExtTreeSet.min?_mem hmin
    obtain ⟨t', ht', hcounts⟩ := h.exists_release hg (hvisit r) hr
    have hrest' := ih hcounts
    rw [hrest] at hrest'
    rw [countdown?, hmin]
    simp only [dif_pos (h.mem_ready.1 hr).1, ht', hrest', Option.bind_eq_bind, Option.bind_some]
  | case2 left hfind =>
    have hmin : t.ready.min? = none := h.min?_ready.trans hfind
    rw [countdown?, hmin]

end Counts

/-! ### The plan -/

theorem takeReady_empty (g : Graph) : g.takeReady ∅ = ([], ∅) := by
  rw [takeReady]
  rfl

theorem WellFormed.countedPlan?_eq (hg : g.WellFormed) (hvisit : ∀ r, (visit r).Perm (g.dependents r).toList)
    (cells : RefSet) : g.countedPlan? visit cells = some (g.plan cells) := by
  have hround : ∀ cells, countdown? visit (g.tally cells) cells = some (g.takeReady cells) := fun cells =>
    (g.counts_tally cells).countdown?_eq hg hvisit
  have hfirst := hg.takeReady_spec cells
  have hnothing := hfirst.left_eq_empty_of_cut (hg.takeReady_spec _) (fun _ => hfirst.onCycleIn_left_iff)
    (fun _ => mem_behind)
  unfold countedPlan? plan
  simp only [hround, Option.bind_eq_bind, Option.bind_some]
  by_cases hempty : (g.takeReady cells).2 = ∅
  · have hnil : (∅ : RefSet).toList = [] := Std.ExtTreeSet.toList_eq_nil_iff.2 rfl
    simp [hempty, hnil, takeReady_empty]
  · rw [if_neg (by simpa using hempty), if_pos (by simpa using hnothing)]

/-- A precedent of a cell in the order is on a cycle or comes before the cell. -/
theorem Planned.mem_before {plan : Plan} {before behind : List Ref} {p : Ref} (h : g.Planned cells plan)
    (horder : plan.order = before ++ r :: behind) (hp : p ∈ cells) (hpr : g.Edge p r) :
    p ∈ plan.cycles ∨ p ∈ before := by
  refine ((h.mem p).1 hp).symm.imp_right fun hmem => ?_
  have hfirst : PrecedentsFirst g.Edge (before ++ r :: behind) := horder ▸ h.first
  rw [horder] at hmem
  exact (List.mem_append.1 hmem).resolve_right fun hlater => hfirst.of_append_right.1 p hlater hpr

/-- The plan for any set of cells, of a graph made by any changes: it holds each cell of the set once, those
on cycles inside the set apart from the others, and each of the others after its precedents. Counting makes
the same plan, in whatever order dependents are visited: no counter falls below zero, and the second round
leaves nothing. -/
theorem plan_after (changes : List Change) (cells : RefSet) :
    let g := empty.after changes
    g.Planned cells (g.plan cells) ∧
      (∀ before r behind, (g.plan cells).order = before ++ r :: behind →
        ∀ p ∈ g.precedents r, p ∈ cells → p ∈ (g.plan cells).cycles ∨ p ∈ before) ∧
      ∀ visit : Ref → List Ref, (∀ r, (visit r).Perm (g.dependents r).toList) →
        g.countedPlan? visit cells = some (g.plan cells) := by
  intro g
  have hg : g.WellFormed := wellFormed_empty.after changes
  have hplan := hg.plan_spec cells
  refine ⟨hplan, fun before r behind horder p hpr hp => ?_, fun visit hvisit => ?_⟩
  · exact hplan.mem_before horder hp ((hg.mirror p r).2 hpr)
  · exact hg.countedPlan?_eq hvisit cells

-- a cycle of `A1` and `B1`, with `C1` behind it and `D1` before it
example :
    let g := empty.after [.setPrecedents ⟨0, 0⟩ [⟨0, 1⟩, ⟨0, 3⟩], .setPrecedents ⟨0, 1⟩ [⟨0, 0⟩],
      .setPrecedents ⟨0, 2⟩ [⟨0, 1⟩]]
    let cells : List Ref := [⟨0, 0⟩, ⟨0, 1⟩, ⟨0, 2⟩, ⟨0, 3⟩]
    g.plan (.ofList cells) = ⟨[⟨0, 3⟩, ⟨0, 2⟩], [⟨0, 0⟩, ⟨0, 1⟩]⟩ := by
  decide +kernel

end Graph

end Spreadsheet
