import Mathlib.Data.List.Chain
import Spreadsheet.Graph.Loop
import Spreadsheet.Proofs.Cycle
import Spreadsheet.Proofs.Graph.Edges

/-!
# What the search for a loop finds

An answer of the search is a path along precedents that closes on itself (`loopPath_of_loop?`): the path under
way is such a path without its end (`Trail`). A cycle can be read off it (`LoopPath.mem_closedPart`). There is an
answer exactly if a cycle can be reached (`isSome_loop?_iff`). A cell that is neither unmet nor on the path has
been left, and it is left only when none of its precedents leads to a cycle, so it does not lead to one either
(`Searched`); with the path empty this holds of the start.
-/

namespace Spreadsheet
open Relation

namespace Graph
variable {g : Graph} {start r p x : Ref} {unmet ps : List Ref} {path : List (Ref × List Ref)} {loop : List Ref}

/-- The formula of `a` mentions `b`. -/
def Mentions (g : Graph) (a b : Ref) : Prop := b ∈ g.precedents a

theorem WellFormed.mentions_eq (h : g.WellFormed) : g.Mentions = Function.swap g.Edge := by
  funext a b
  exact propext (h.mirror b a).symm

/-- A path along precedents into a loop: all its cells are different, except that the last is one of those
before. -/
structure LoopPath (g : Graph) (start : Ref) (loop : List Ref) : Prop where
  head : loop.head? = some start
  chain : loop.IsChain g.Mentions
  nodup : loop.dropLast.Nodup
  closed : ∃ last ∈ loop.dropLast, loop.getLast? = some last

/-- No path along precedents leads from the cell to a cycle. -/
def LoopFree (g : Graph) (r : Ref) : Prop := ∀ x, ReflTransGen g.Mentions r x → ¬ TransGen g.Mentions x x

theorem LoopFree.of_precedents (h : ∀ p, g.Mentions r p → g.LoopFree p) : g.LoopFree r := by
  -- the first step, of the path or else of the cycle, goes to a precedent
  intro x hrx hcycle
  rcases hrx.cases_head with rfl | ⟨p, hrp, hpx⟩
  · obtain ⟨p, hrp, hpr⟩ := TransGen.head'_iff.1 hcycle
    exact h p hrp p .refl (TransGen.tail' hpr hrp)
  · exact h p hrp x hpx hcycle

theorem loopFree_of_notMem_formulaCells (hr : r ∉ g.formulaCells) : g.LoopFree r := by
  have hnone : g.precedentMap[r]? = none := by
    rw [formulaCells, Std.ExtTreeMap.mem_keys] at hr
    exact Std.ExtTreeMap.getElem?_eq_none hr
  refine .of_precedents fun p hp => ?_
  simp [Mentions, precedents, hnone] at hp

/-- The part of a path from where its last cell stands first to the end. -/
def closedPart (loop : List Ref) : List Ref := loop.dropWhile (some · ≠ loop.getLast?)

namespace LoopPath

theorem closedPart_eq (h : g.LoopPath start loop) :
    ∃ before last between, loop = before ++ closedPart loop ∧ closedPart loop = last :: (between ++ [last]) := by
  obtain ⟨last, hmem, hlast⟩ := h.closed
  obtain ⟨front, hfront⟩ := List.getLast?_eq_some_iff.1 hlast
  rw [hfront, List.dropLast_concat] at hmem
  obtain ⟨before, between, rfl⟩ := List.append_of_mem hmem
  have hnodup := h.nodup
  rw [hfront, List.dropLast_concat] at hnodup
  have hloop : loop = before ++ last :: (between ++ [last]) := by
    rw [hfront, List.append_assoc, List.cons_append]
  have hbefore : ∀ a ∈ before, some a ≠ loop.getLast? := fun a ha heq => by
    obtain rfl : a = last := Option.some.inj (heq.trans hlast)
    exact (List.nodup_append.1 hnodup).2.2 a ha a List.mem_cons_self rfl
  have hclosed : closedPart loop = last :: (between ++ [last]) := by
    have hskip : loop.dropWhile (some · ≠ loop.getLast?) =
        (last :: (between ++ [last])).dropWhile (some · ≠ loop.getLast?) := by
      conv_lhs => arg 2; rw [hloop]
      exact List.dropWhile_append_of_pos fun a ha => decide_eq_true (hbefore a ha)
    rw [closedPart, hskip, List.dropWhile_cons_of_neg (by simp [hlast])]
  exact ⟨before, last, between, hclosed ▸ hloop, hclosed⟩

/-- From each cell of the closed part a path leads to each of them, once around. -/
theorem mem_closedPart (h : g.LoopPath start loop) (hx : x ∈ closedPart loop) :
    ReflTransGen g.Mentions start x ∧ ∀ y ∈ closedPart loop, TransGen g.Mentions x y := by
  obtain ⟨before, last, between, hloop, hclosed⟩ := h.closedPart_eq
  have hpaths : loop.Pairwise (TransGen g.Mentions) :=
    List.isChain_iff_pairwise.1 (h.chain.imp fun _ _ => TransGen.single)
  have hround : (last :: (between ++ [last])).Pairwise (TransGen g.Mentions) := by
    rw [← hclosed]
    exact hpaths.sublist (List.dropWhile_sublist _)
  have hfrom : ∀ y ∈ closedPart loop, TransGen g.Mentions last y := fun y hy => by
    refine List.rel_of_pairwise_cons hround ?_
    rcases List.mem_cons.1 (hclosed ▸ hy) with rfl | hy
    · exact List.mem_append_right _ List.mem_cons_self
    · exact hy
  have hto : ∀ y ∈ closedPart loop, TransGen g.Mentions y last := fun y hy => by
    rw [hclosed, ← List.cons_append] at hy
    rcases List.mem_append.1 hy with hy | hy
    · exact (List.pairwise_append.1 hround).2.2 y hy last List.mem_cons_self
    · obtain rfl := List.mem_singleton.1 hy
      exact hfrom y (by simp [hclosed])
  have hstart : ReflTransGen g.Mentions start last := by
    have hhead := h.head
    rw [hloop, hclosed] at hpaths hhead
    cases before with
    | nil =>
      obtain rfl : last = start := by simpa using hhead
      exact .refl
    | cons a before =>
      obtain rfl : a = start := by simpa using hhead
      have hpath : TransGen g.Mentions a last := List.rel_of_pairwise_cons hpaths (by simp)
      exact hpath.to_reflTransGen
  exact ⟨hstart.trans (hfrom x hx).to_reflTransGen, fun y hy => (hto x hx).trans (hfrom y hy)⟩

theorem closedPart_ne_nil (h : g.LoopPath start loop) : closedPart loop ≠ [] := by
  obtain ⟨_, last, _, -, hclosed⟩ := h.closedPart_eq
  exact hclosed ▸ List.cons_ne_nil last _

theorem not_loopFree (h : g.LoopPath start loop) : ¬ g.LoopFree start := by
  intro hfree
  obtain ⟨x, hx⟩ := List.exists_mem_of_ne_nil _ h.closedPart_ne_nil
  obtain ⟨hpath, hround⟩ := h.mem_closedPart hx
  exact hfree x hpath (hround x hx)

end LoopPath

/-! ### The path under way -/

/-- The path of the search, the cell entered last first, with the precedents still to be tried. -/
structure Trail (g : Graph) (start : Ref) (path : List (Ref × List Ref)) : Prop where
  chain : (cellsOf path).IsChain fun b a => g.Mentions a b
  nodup : (cellsOf path).Nodup
  start : ∀ a ∈ (cellsOf path).getLast?, a = start
  untried : ∀ e ∈ path, ∀ p ∈ e.2, g.Mentions e.1 p

namespace Trail

theorem of_start : g.Trail start [(start, (g.precedents start).toList)] where
  chain := List.isChain_singleton start
  nodup := List.nodup_singleton start
  start a ha := by simpa [cellsOf, eq_comm] using ha
  untried e he p hp := by
    obtain rfl := List.mem_singleton.1 he
    exact Std.ExtTreeSet.mem_toList.1 hp

theorem leave (h : g.Trail start ((r, ps) :: path)) : g.Trail start path where
  chain := h.chain.tail
  nodup := (List.nodup_cons.1 h.nodup).2
  start a ha := h.start a (by
    cases path with
    | nil => simp [cellsOf] at ha
    | cons e path => simpa [cellsOf] using ha)
  untried e he := h.untried e (List.mem_cons_of_mem _ he)

theorem skip (h : g.Trail start ((r, p :: ps) :: path)) : g.Trail start ((r, ps) :: path) where
  chain := h.chain
  nodup := h.nodup
  start := h.start
  untried e he q hq := by
    rcases List.mem_cons.1 he with rfl | he
    · exact h.untried _ List.mem_cons_self q (List.mem_cons_of_mem _ hq)
    · exact h.untried e (List.mem_cons_of_mem _ he) q hq

theorem mentions (h : g.Trail start ((r, p :: ps) :: path)) : g.Mentions r p :=
  h.untried _ List.mem_cons_self p List.mem_cons_self

theorem enter (h : g.Trail start ((r, p :: ps) :: path)) (hp : p ∉ r :: cellsOf path) :
    g.Trail start ((p, (g.precedents p).toList) :: (r, ps) :: path) where
  chain := List.isChain_cons_cons.2 ⟨h.mentions, h.chain⟩
  nodup := List.nodup_cons.2 ⟨hp, h.nodup⟩
  start a ha := h.start a (by simpa [cellsOf] using ha)
  untried e he q hq := by
    rcases List.mem_cons.1 he with rfl | he
    · exact Std.ExtTreeSet.mem_toList.1 hq
    · exact h.skip.untried e he q hq

theorem close (h : g.Trail start ((r, p :: ps) :: path)) (hp : p ∈ r :: cellsOf path) :
    g.LoopPath start (p :: r :: cellsOf path).reverse where
  head := by
    rw [List.head?_reverse, List.getLast?_cons_cons]
    obtain ⟨a, ha⟩ : ∃ a, (r :: cellsOf path).getLast? = some a :=
      ⟨_, List.getLast?_eq_some_getLast (List.cons_ne_nil _ _)⟩
    rw [ha, h.start a ha]
  chain := List.isChain_reverse.2 (List.isChain_cons_cons.2 ⟨h.mentions, h.chain⟩)
  nodup := by
    rw [List.dropLast_reverse]
    exact List.nodup_reverse.2 h.nodup
  closed := ⟨p, by rw [List.dropLast_reverse, List.mem_reverse]; exact hp, by simp⟩

end Trail

theorem loopPath_of_loopOn (h : g.Trail start path) (hsome : g.loopOn unmet path = some loop) :
    g.LoopPath start loop := by
  fun_induction loopOn g unmet path with
  | case1 => cases hsome
  | case2 unmet r path ih => exact ih h.leave hsome
  | case3 unmet r p ps path hp =>
    obtain rfl := Option.some.inj hsome
    exact h.close hp
  | case4 unmet r p ps path hp hunmet ih => exact ih (h.enter hp) hsome
  | case5 unmet r p ps path hp hunmet ih => exact ih h.skip hsome

/-! ### The cells that were left -/

/-- Each precedent of a cell of the path is still to be tried, or is the cell that was entered from there, or
was found to lead to no cycle. -/
def Tried (g : Graph) : (entered : Option Ref) → (path : List (Ref × List Ref)) → Prop
  | _, [] => True
  | entered, (r, ps) :: path =>
    (∀ p, g.Mentions r p → p ∈ ps ∨ entered = some p ∨ g.LoopFree p) ∧ g.Tried (some r) path

/-- What a search has found out so far. -/
structure Searched (g : Graph) (unmet : List Ref) (path : List (Ref × List Ref)) : Prop where
  tried : g.Tried none path
  left : ∀ x, x ∉ unmet → x ∉ cellsOf path → g.LoopFree x

namespace Searched

theorem of_start : g.Searched (g.formulaCells.erase start) [(start, (g.precedents start).toList)] where
  tried := ⟨fun _ hp => .inl (Std.ExtTreeSet.mem_toList.2 hp), trivial⟩
  left x hx hstart := by
    have hne : x ≠ start := by simpa [cellsOf] using hstart
    exact loopFree_of_notMem_formulaCells ((List.mem_erase_of_ne hne).not.1 hx)

theorem leave (h : g.Searched unmet ((r, []) :: path)) : g.Searched unmet path := by
  have hr : g.LoopFree r := .of_precedents fun p hp => by simpa using h.tried.1 p hp
  refine ⟨?_, fun x hx hpath => ?_⟩
  · cases path with
    | nil => trivial
    | cons e path =>
      refine ⟨fun p hp => (h.tried.2.1 p hp).imp_right fun hor => .inr ?_, h.tried.2.2⟩
      rcases hor with heq | hfree
      · exact Option.some.inj heq ▸ hr
      · exact hfree
  · by_cases hxr : x = r
    · exact hxr ▸ hr
    · exact h.left x hx (by simpa [cellsOf, hxr] using hpath)

theorem enter (h : g.Searched unmet ((r, p :: ps) :: path)) :
    g.Searched (unmet.erase p) ((p, (g.precedents p).toList) :: (r, ps) :: path) where
  tried := by
    refine ⟨fun q hq => .inl (Std.ExtTreeSet.mem_toList.2 hq), fun q hq => ?_, h.tried.2⟩
    rcases h.tried.1 q hq with hmem | hnone | hfree
    · exact (List.mem_cons.1 hmem).symm.imp_right fun heq => .inl (congrArg some heq.symm)
    · cases hnone
    · exact .inr (.inr hfree)
  left x hx hpath := by
    obtain ⟨hxp, hpath⟩ := not_or.1 (mt List.mem_cons.2 hpath)
    exact h.left x ((List.mem_erase_of_ne hxp).not.1 hx) hpath

theorem skip (h : g.Searched unmet ((r, p :: ps) :: path)) (hp : p ∉ r :: cellsOf path) (hunmet : p ∉ unmet) :
    g.Searched unmet ((r, ps) :: path) where
  tried := by
    refine ⟨fun q hq => ?_, h.tried.2⟩
    rcases h.tried.1 q hq with hmem | hnone | hfree
    · exact (List.mem_cons.1 hmem).symm.imp_right fun heq => .inr (by rw [heq]; exact h.left p hunmet hp)
    · cases hnone
    · exact .inr (.inr hfree)
  left := h.left

end Searched

theorem loopFree_of_loopOn (h : g.Searched unmet path) (hnone : g.loopOn unmet path = none)
    (hx : x ∉ unmet) : g.LoopFree x := by
  fun_induction loopOn g unmet path with
  | case1 unmet => exact h.left x hx (by simp [cellsOf])
  | case2 unmet r path ih => exact ih h.leave hnone hx
  | case3 => cases hnone
  | case4 unmet r p ps path hp hunmet ih => exact ih h.enter hnone (mt List.mem_of_mem_erase hx)
  | case5 unmet r p ps path hp hunmet ih => exact ih (h.skip hp hunmet) hnone hx

/-! ### The whole search -/

theorem loopPath_of_loop? (h : g.loop? start = some loop) : g.LoopPath start loop :=
  loopPath_of_loopOn .of_start h

theorem isSome_loop?_iff : (g.loop? start).isSome ↔ ¬ g.LoopFree start := by
  constructor
  · intro hsome
    obtain ⟨loop, hloop⟩ := Option.isSome_iff_exists.1 hsome
    exact (loopPath_of_loop? hloop).not_loopFree
  · intro hfree
    by_contra hnone
    have hstart : start ∉ g.formulaCells.erase start := List.Nodup.not_mem_erase nodup_formulaCells
    exact hfree (loopFree_of_loopOn .of_start (Option.not_isSome_iff_eq_none.1 hnone) hstart)

end Graph

end Spreadsheet
