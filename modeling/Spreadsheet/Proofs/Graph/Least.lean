import Spreadsheet.Proofs.Graph.Countdown

/-!
# The least order

In each of its two rounds a plan takes the least cell that could come next, and what comes of it is the least
of all orders that put precedents first: another order starts with a cell that could come next as well, so with
the same cell or with a greater one (`LeastOrder.cons`). The first round takes the cells that are neither on a
cycle nor behind one (`Taken.mem_left_iff`). A least order is unique, so a plan is determined by the edges
inside its set, however the graph came about and whatever the order in which dependents are visited.
-/

namespace Spreadsheet
open Relation

section
variable {α : Type*} {R R' : α → α → Prop} {S : Set α} {l l' : List α} {r : α}

/-- The element lies on a cycle, or a path leads to it from one. -/
def OnOrBehindCycle (R : α → α → Prop) (r : α) : Prop := ∃ c, TransGen R c c ∧ ReflTransGen R c r

theorem PrecedentsFirst.mono (h : PrecedentsFirst R l) (hR : ∀ p ∈ l, ∀ r ∈ l, R' p r → R p r) :
    PrecedentsFirst R' l := by
  induction l with
  | nil => trivial
  | cons r l ih =>
    refine ⟨fun p hp hpr => h.1 p hp (hR p hp r List.mem_cons_self hpr), ih h.2 fun p hp r hr => ?_⟩
    exact hR p (List.mem_cons_of_mem _ hp) r (List.mem_cons_of_mem _ hr)

/-- The list holds each element of the set once, and no element comes before one of its predecessors. -/
structure Orders (R : α → α → Prop) (S : Set α) (l : List α) : Prop where
  nodup : l.Nodup
  mem : ∀ r, r ∈ l ↔ r ∈ S
  first : PrecedentsFirst R l

theorem Orders.mono (h : Orders R S l) (hR : ∀ p ∈ S, ∀ r ∈ S, R' p r → R p r) : Orders R' S l where
  nodup := h.nodup
  mem := h.mem
  first := h.first.mono fun p hp r hr => hR p ((h.mem p).1 hp) r ((h.mem r).1 hr)

theorem Orders.tail (h : Orders R (insert r S) (r :: l)) (hr : r ∉ S) : Orders R S l := by
  have hnodup := List.nodup_cons.1 h.nodup
  refine ⟨hnodup.2, fun x => ?_, h.first.2⟩
  have hx := h.mem x
  by_cases hxr : x = r
  · simp [hxr, hnodup.1, hr]
  · simpa [hxr] using hx

/-- Of all these lists the least one, compared element by element from the front. -/
structure LeastOrder [LT α] (R : α → α → Prop) (S : Set α) (l : List α) : Prop extends Orders R S l where
  least : ∀ l', Orders R S l' → l = l' ∨ l < l'

namespace LeastOrder
variable [LT α]

theorem nil : LeastOrder R ∅ ([] : List α) := by
  refine ⟨⟨List.nodup_nil, by simp, trivial⟩, fun l' h' => .inl ?_⟩
  exact (List.eq_nil_iff_forall_not_mem.2 fun r hr => (h'.mem r).1 hr).symm

/-- The least element without predecessors, in front of the least order of the others. -/
theorem cons (h : LeastOrder R S l) (hr : r ∉ S) (hfirst : ∀ p ∈ insert r S, ¬ R p r)
    (hleast : ∀ x ∈ insert r S, (∀ p ∈ insert r S, ¬ R p x) → r = x ∨ r < x) :
    LeastOrder R (insert r S) (r :: l) := by
  have hmem : ∀ x, x ∈ r :: l ↔ x ∈ insert r S := fun x => by
    rw [List.mem_cons, Set.mem_insert_iff, h.mem]
  refine ⟨⟨List.nodup_cons.2 ⟨mt (h.mem r).1 hr, h.nodup⟩, hmem, fun p hp => hfirst p ((hmem p).1 hp), h.first⟩,
    fun l' h' => ?_⟩
  cases l' with
  | nil => exact absurd ((h'.mem r).2 (Set.mem_insert r S)) List.not_mem_nil
  | cons x l' =>
    have hx : r = x ∨ r < x := hleast x ((h'.mem x).1 List.mem_cons_self) fun p hp =>
      h'.first.1 p ((h'.mem p).2 hp)
    rcases hx with rfl | hlt
    · exact (h.least l' (h'.tail hr)).imp (congrArg (r :: ·)) List.Lex.cons
    · exact .inr (.rel hlt)

theorem congr (h : LeastOrder R S l) (hR : ∀ p ∈ S, ∀ r ∈ S, R' p r ↔ R p r) : LeastOrder R' S l where
  toOrders := h.toOrders.mono fun p hp r hr => (hR p hp r hr).1
  least l' h' := h.least l' (h'.mono fun p hp r hr => (hR p hp r hr).2)

theorem unique [Std.Asymm (α := α) (· < ·)] (h : LeastOrder R S l) (h' : LeastOrder R S l') : l = l' := by
  rcases h.least l' h'.toOrders with heq | hlt
  · exact heq
  · rcases h'.least l h.toOrders with heq | hlt'
    · exact heq.symm
    · exact absurd hlt' (List.lt_asymm hlt)

end LeastOrder

/-- The least order of the elements that are neither on a cycle nor behind one, and then the least order of
those that are behind a cycle but on none. -/
def CanonicalOrder [LT α] (R : α → α → Prop) (S : Set α) (l : List α) : Prop :=
  ∃ before behind, l = before ++ behind ∧
    LeastOrder R {r | r ∈ S ∧ ¬ OnOrBehindCycle R r} before ∧
    LeastOrder R {r | r ∈ S ∧ OnOrBehindCycle R r ∧ ¬ TransGen R r r} behind

theorem CanonicalOrder.unique [LT α] [Std.Asymm (α := α) (· < ·)] (h : CanonicalOrder R S l)
    (h' : CanonicalOrder R S l') : l = l' := by
  obtain ⟨before, behind, rfl, hbefore, hbehind⟩ := h
  obtain ⟨before', behind', rfl, hbefore', hbehind'⟩ := h'
  rw [hbefore.unique hbefore', hbehind.unique hbehind']

end

instance : Std.Asymm (α := Ref) (· < ·) where
  asymm a b hab hba := by
    rw [Ref.lt_iff] at hab hba
    omega

namespace Graph
variable {g g' : Graph} {todo left cells : RefSet} {order l : List Ref} {a b r x : Ref}

/-! ### One round -/

/-- The first hit among the cells of a set is the least one. -/
theorem eq_or_lt_of_find? {q : Ref → Bool} (h : todo.toList.find? q = some r) (hx : x ∈ todo) (hq : q x) :
    r = x ∨ r < x := by
  obtain ⟨-, before, behind, hsplit, hnone⟩ := List.find?_eq_some_iff_append.1 h
  have hsorted : (before ++ r :: behind).Pairwise (· < ·) := hsplit ▸ Std.ExtTreeSet.ordered_toList
  have hmem : x ∈ before ++ r :: behind := hsplit ▸ Std.ExtTreeSet.mem_toList.2 hx
  rcases List.mem_append.1 hmem with hx | hx
  · exact absurd hq (by simpa using hnone x hx)
  · rcases List.mem_cons.1 hx with rfl | hx
    · exact .inl rfl
    · exact .inr (List.rel_of_pairwise_cons (List.pairwise_append.1 hsorted).2.1 hx)

theorem WellFormed.leastOrder_takeReady (h : g.WellFormed) (todo : RefSet) :
    LeastOrder g.Edge {r | r ∈ (g.takeReady todo).1} (g.takeReady todo).1 := by
  fun_induction takeReady g todo with
  | case1 todo r hfind order left hrest ih =>
    have hbehind := h.takeReady_spec (todo.erase r)
    rw [hrest] at ih hbehind
    obtain ⟨hr, hready⟩ := h.ready_of_find? hfind
    have hround : g.Taken todo (r :: order) left := .cons hr hready hbehind
    have hset : {x | x ∈ r :: order} = insert r {x | x ∈ order} := by
      ext x
      exact List.mem_cons
    have hr' : r ∉ order := (List.nodup_cons.1 hround.nodup).1
    rw [hset]
    refine ih.cons hr' (fun p hp => hround.first.1 p (List.mem_cons.2 hp)) fun x hx hfirst => ?_
    rw [← hset] at hx hfirst
    -- nothing that is left over precedes `x` either, so it could have been taken
    have hxready : ¬ g.isBlocked todo x := by
      rw [h.isBlocked_iff]
      rintro ⟨p, hp, hpx⟩
      rcases (hround.mem p).1 hp with hp | hp
      · exact hfirst p hp hpx
      · exact hround.apart x hx p hp hpx
    exact eq_or_lt_of_find? hfind ((hround.mem x).2 (.inl hx)) (by simpa using hxready)
  | case2 todo hfind => simpa using LeastOrder.nil

/-! ### The plan -/

/-- The edges between cells of a set. -/
def EdgeWithin (g : Graph) (cells : RefSet) : Ref → Ref → Prop := Inside g.Edge {r | r ∈ cells}

theorem edgeWithin_iff (ha : a ∈ cells) (hb : b ∈ cells) : g.EdgeWithin cells a b ↔ g.Edge a b :=
  ⟨Inside.step, fun h => ⟨ha, hb, h⟩⟩

/-- What a round leaves is on a cycle or behind one, for where nothing is, each cell left has a precedent that
is not either, and this makes a cycle. -/
theorem Taken.mem_left_iff (h : g.Taken cells order left) :
    r ∈ left ↔ OnOrBehindCycle (g.EdgeWithin cells) r := by
  have hsub : ∀ x ∈ left, x ∈ cells := fun x hx => (h.mem x).2 (.inr hx)
  constructor
  · intro hr
    by_contra hno
    let S : Set Ref := {x | x ∈ left ∧ ¬ OnOrBehindCycle (g.EdgeWithin cells) x}
    have hfin : S.Finite := (List.finite_toSet left.toList).subset fun x hx => Std.ExtTreeSet.mem_toList.2 hx.1
    obtain ⟨x, hx, hcycle⟩ := exists_cycle_inside hfin ⟨r, hr, hno⟩ (R := g.Edge) fun x hx => by
      obtain ⟨p, hp, hpx⟩ := h.stuck x hx.1
      refine ⟨p, ⟨hp, ?_⟩, hpx⟩
      rintro ⟨c, hcycle, hpath⟩
      exact hx.2 ⟨c, hcycle, hpath.tail ⟨hsub p hp, hsub x hx.1, hpx⟩⟩
    exact hx.2 ⟨x, transGen_inside_mono (fun y hy => hsub y hy.1) hcycle, .refl⟩
  · rintro ⟨c, hcycle, hpath⟩
    induction hpath with
    | refl => exact h.mem_left_of_cycle hcycle
    | @tail p x _ hpx ih =>
      refine ((h.mem x).1 hpx.2.1).resolve_left fun hx => ?_
      exact h.apart x hx p ih hpx.step

section Rounds
variable {behind left' : RefSet} {order' cycles : List Ref}

/-- Two rounds, each of which takes its cells in their least order, make the canonical order. -/
theorem Taken.canonicalOrder
    (hfirst : g.Taken cells order left) (hsecond : g.Taken behind order' left')
    (hcycles : ∀ r, r ∈ cycles ↔ TransGen (g.EdgeWithin cells) r r)
    (hbehind : ∀ r, r ∈ behind ↔ r ∈ left ∧ r ∉ cycles)
    (hleast : LeastOrder g.Edge {r | r ∈ order} order) (hleast' : LeastOrder g.Edge {r | r ∈ order'} order') :
    CanonicalOrder (g.EdgeWithin cells) {r | r ∈ cells} (order ++ order') := by
  have horder : {r | r ∈ order} = {r | r ∈ cells ∧ ¬ OnOrBehindCycle (g.EdgeWithin cells) r} := by
    ext r
    rw [Set.mem_ofPred_eq, Set.mem_ofPred_eq, ← hfirst.mem_left_iff, hfirst.mem]
    have hdisjoint := hfirst.disjoint r
    tauto
  have horder' : {r | r ∈ order'} = {r | r ∈ cells ∧ OnOrBehindCycle (g.EdgeWithin cells) r ∧
      ¬ TransGen (g.EdgeWithin cells) r r} := by
    have hnothing : left' = ∅ := hfirst.left_eq_empty_of_cut hsecond hcycles hbehind
    ext r
    have hmem : r ∈ order' ↔ r ∈ behind := by simp [hsecond.mem r, hnothing]
    rw [Set.mem_ofPred_eq, Set.mem_ofPred_eq, ← hfirst.mem_left_iff, ← hcycles, hmem, hbehind, hfirst.mem]
    tauto
  refine ⟨order, order', rfl, ?_, ?_⟩
  · exact (horder ▸ hleast).congr fun p hp r hr => edgeWithin_iff hp.1 hr.1
  · exact (horder' ▸ hleast').congr fun p hp r hr => edgeWithin_iff hp.1 hr.1

end Rounds

theorem WellFormed.canonicalOrder_plan (h : g.WellFormed) (cells : RefSet) :
    CanonicalOrder (g.EdgeWithin cells) {r | r ∈ cells} (g.plan cells).order := by
  have hfirst := h.takeReady_spec cells
  exact hfirst.canonicalOrder (h.takeReady_spec _) (fun _ => hfirst.onCycleIn_left_iff) (fun _ => mem_behind)
    (h.leastOrder_takeReady _) (h.leastOrder_takeReady _)

/-- The order of the plan for any set of cells, of a graph made by any changes, is the canonical one. Another
run of changes that leaves the same edges between the cells of the set gives the same order, and so does
counting, in whatever order dependents are visited. -/
theorem canonicalOrder_after (changes : List Change) (cells : RefSet) :
    let g := empty.after changes
    CanonicalOrder (g.EdgeWithin cells) {r | r ∈ cells} (g.plan cells).order ∧
      (∀ changes', (∀ a ∈ cells, ∀ b ∈ cells, (empty.after changes').Edge a b ↔ g.Edge a b) →
        ((empty.after changes').plan cells).order = (g.plan cells).order) ∧
      ∀ visit : Ref → List Ref, (∀ r, (visit r).Perm (g.dependents r).toList) →
        (g.countedPlan? visit cells).map Plan.order = some (g.plan cells).order := by
  intro g
  have hg : g.WellFormed := wellFormed_empty.after changes
  have hcanonical := hg.canonicalOrder_plan cells
  refine ⟨hcanonical, fun changes' hedges => ?_, fun visit hvisit => ?_⟩
  · have hcanonical' := (wellFormed_empty.after changes').canonicalOrder_plan cells
    have hwithin : (empty.after changes').EdgeWithin cells = g.EdgeWithin cells := by
      funext a b
      refine propext (and_congr_right fun ha => and_congr_right fun hb => hedges a ha b hb)
    rw [hwithin] at hcanonical'
    exact hcanonical'.unique hcanonical
  · rw [hg.countedPlan?_eq hvisit cells]
    rfl

-- `C1` waits for `D1`, which comes after `B1`; behind the cycle of `A1` and `A2`, `B2` waits for `C2`
example :
    let g := empty.after [.setPrecedents ⟨0, 2⟩ [⟨0, 3⟩], .setPrecedents ⟨0, 0⟩ [⟨1, 0⟩],
      .setPrecedents ⟨1, 0⟩ [⟨0, 0⟩], .setPrecedents ⟨1, 1⟩ [⟨1, 2⟩], .setPrecedents ⟨1, 2⟩ [⟨0, 0⟩]]
    let cells : List Ref := [⟨0, 0⟩, ⟨0, 1⟩, ⟨0, 2⟩, ⟨0, 3⟩, ⟨1, 0⟩, ⟨1, 1⟩, ⟨1, 2⟩]
    (g.plan (.ofList cells)).order = [⟨0, 1⟩, ⟨0, 3⟩, ⟨0, 2⟩, ⟨1, 2⟩, ⟨1, 1⟩] := by
  decide +kernel

end Graph

end Spreadsheet
