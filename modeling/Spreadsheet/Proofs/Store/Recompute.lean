import Mathlib.Data.List.Perm.Lattice
import Spreadsheet.Proofs.Cycle
import Spreadsheet.Proofs.Formula.Reads
import Spreadsheet.Store

/-!
# What a recomputation changes

Recalculation replaces the values of formula cells and nothing else, so what was put into the cells, their
contents, stays (`content?_recomputeAll`, `content?_foldl_replaceValue`). `Computes` lists the cells that are
computed on the way from one store to another; each of them ends with the value of its formula over the store
at its turn (`ComputedOnce.exists_turn`). If the cells come with their precedents first, this is also the value
that the formula has over the final store (`values_recomputeAll`): nothing that the formula reads changes after
its turn.
-/

namespace Spreadsheet

/-- What was put into a cell: a formula, or the value of a literal. -/
def Cell.content (c : Cell) : String ⊕ Value :=
  match c.formula with
  | some f => .inl f
  | none => .inr c.value

namespace Store
variable {s t : Store} {r x a b : Ref} {v : Value} {f : String} {rs rs' : List Ref} {kind : Cell → Bool}

def content? (s : Store) (r : Ref) : Option (String ⊕ Value) := s[r]?.map Cell.content

def formula? (s : Store) (r : Ref) : Option String := s[r]?.bind Cell.formula

/-- The formula of `b` mentions `a`. -/
def Feeds (s : Store) (a b : Ref) : Prop := ∃ f, s.formula? b = some f ∧ a ∈ Formula.references f

theorem Feeds.formula? (h : s.Feeds a b) : ∃ f, s.formula? b = some f := h.imp fun _ => And.left

theorem formula?_eq_getLeft? : s.formula? r = (s.content? r).bind Sum.getLeft? := by
  unfold formula? content? Cell.content
  cases s[r]? with
  | none => rfl
  | some c => rcases c with ⟨v, _ | f⟩ <;> rfl

theorem formula?_congr (h : s.content? = t.content?) : s.formula? = t.formula? := by
  funext r
  rw [formula?_eq_getLeft?, formula?_eq_getLeft?, h]

theorem feeds_congr (h : s.formula? = t.formula?) : s.Feeds = t.Feeds := by
  unfold Feeds
  rw [h]

/-! ### Counting cells -/

theorem mem_map_filter :
    r ∈ (s.toList.filter (kind ·.2)).map Prod.fst ↔ ∃ c, s[r]? = some c ∧ kind c := by
  simp only [List.mem_map, List.mem_filter]
  constructor
  · rintro ⟨⟨r, c⟩, ⟨hmem, hkind⟩, rfl⟩
    exact ⟨c, Std.ExtTreeMap.mem_toList_iff_getElem?_eq_some.1 hmem, hkind⟩
  · rintro ⟨c, hr, hkind⟩
    exact ⟨(r, c), ⟨Std.ExtTreeMap.mem_toList_iff_getElem?_eq_some.2 hr, hkind⟩, rfl⟩

theorem nodup_map_filter : ((s.toList.filter (kind ·.2)).map Prod.fst).Nodup := by
  refine List.Nodup.sublist (List.filter_sublist.map _) ?_
  rw [Std.ExtTreeMap.map_fst_toList_eq_keys]
  exact Std.ExtTreeMap.nodup_keys

/-- A list that holds each cell of some kind once counts the cells of this kind. -/
theorem length_eq_countP (kind : Cell → Bool) (hnodup : rs.Nodup)
    (hmem : ∀ r, r ∈ rs ↔ ∃ c, s[r]? = some c ∧ kind c) :
    rs.length = s.toList.countP (kind ·.2) := by
  have hperm : rs.Perm ((s.toList.filter (kind ·.2)).map Prod.fst) :=
    (List.perm_ext_iff_of_nodup hnodup nodup_map_filter).2 fun r => by rw [hmem, mem_map_filter]
  rw [hperm.length_eq, List.length_map, ← List.countP_eq_length_filter]

theorem mem_formulaCells_iff : r ∈ s.formulaCells ↔ ∃ c, s[r]? = some c ∧ c.hasFormula := by
  rw [formulaCells, List.mem_filter, Std.ExtTreeMap.mem_keys, Option.any_eq_true, and_iff_right_iff_imp]
  rintro ⟨c, hc, -⟩
  exact Std.ExtTreeMap.mem_iff_isSome_getElem?.2 (Option.isSome_of_eq_some hc)

theorem mem_formulaCells : r ∈ s.formulaCells ↔ ∃ f, s.formula? r = some f := by
  simp only [mem_formulaCells_iff, formula?, Cell.hasFormula, Option.bind_eq_some_iff, Option.isSome_iff_exists]
  exact ⟨fun ⟨c, hc, f, hf⟩ => ⟨f, c, hc, hf⟩, fun ⟨f, c, hc, hf⟩ => ⟨c, hc, f, hf⟩⟩

theorem nodup_formulaCells : s.formulaCells.Nodup := Std.ExtTreeMap.nodup_keys.filter _

theorem length_formulaCells : s.formulaCells.length = s.toList.countP (·.2.hasFormula) :=
  length_eq_countP Cell.hasFormula nodup_formulaCells fun _ => mem_formulaCells_iff

/-! ### One value -/

theorem getElem?_replaceValue :
    (s.replaceValue r v)[x]? = if r = x then s[x]?.map ({ · with value := v }) else s[x]? := by
  unfold replaceValue replaceValue?
  by_cases hx : r = x
  · subst hx
    cases hr : s[r]? <;> simp [hr]
  · cases hr : s[r]? <;> simp [hx, Std.ExtTreeMap.getElem?_insert]

theorem values_replaceValue_self (h : s.formula? r = some f) : (s.replaceValue r v).values r = some v := by
  obtain ⟨c, hc, -⟩ := Option.bind_eq_some_iff.1 h
  rw [values, getElem?_replaceValue, if_pos rfl, hc]
  rfl

theorem values_replaceValue_of_ne (hx : r ≠ x) : (s.replaceValue r v).values x = s.values x := by
  rw [values, getElem?_replaceValue, if_neg hx, values]

theorem content?_replaceValue (h : s.formula? r = some f) : (s.replaceValue r v).content? = s.content? := by
  funext x
  rw [content?, content?, getElem?_replaceValue]
  split
  · next hx =>
    subst hx
    obtain ⟨c, hc, hcf⟩ := Option.bind_eq_some_iff.1 h
    simp [hc, Cell.content, hcf]
  · rfl

theorem recompute?_eq :
    s.recompute? r = (s.formula? r).map fun f => s.replaceValue r (Formula.value s.values f) := by
  unfold recompute? formula? replaceValue replaceValue?
  cases s[r]? with
  | none => rfl
  | some c => rcases c with ⟨v, _ | f⟩ <;> rfl

/-! ### The values of a list of cells -/

theorem recomputeAll_cons_some (h : s.formula? r = some f) :
    s.recomputeAll (r :: rs) =
      (((s.replaceValue r (Formula.value s.values f)).recomputeAll rs).1 + 1,
        ((s.replaceValue r (Formula.value s.values f)).recomputeAll rs).2) := by
  rw [recomputeAll, recompute?_eq, h]
  rfl

theorem recomputeAll_cons_none (h : s.formula? r = none) :
    s.recomputeAll (r :: rs) = s.recomputeAll rs := by
  rw [recomputeAll, recompute?_eq, h]
  rfl

theorem content?_recomputeAll : (s.recomputeAll rs).2.content? = s.content? := by
  induction rs generalizing s with
  | nil => rfl
  | cons r rs ih =>
    cases hf : s.formula? r with
    | none => rw [recomputeAll_cons_none hf, ih]
    | some f => rw [recomputeAll_cons_some hf, ih, content?_replaceValue hf]

theorem getElem?_recomputeAll_of_notMem (hx : x ∉ rs) : (s.recomputeAll rs).2[x]? = s[x]? := by
  induction rs generalizing s with
  | nil => rfl
  | cons r rs ih =>
    have hxr := List.ne_of_not_mem_cons hx
    have hx := List.not_mem_of_not_mem_cons hx
    cases hf : s.formula? r with
    | none => rw [recomputeAll_cons_none hf, ih hx]
    | some f => rw [recomputeAll_cons_some hf, ih hx, getElem?_replaceValue, if_neg (Ne.symm hxr)]

theorem values_recomputeAll_of_notMem (hx : x ∉ rs) : (s.recomputeAll rs).2.values x = s.values x := by
  rw [values, getElem?_recomputeAll_of_notMem hx, values]

theorem recomputed_recomputeAll : (s.recomputeAll rs).1 = rs.countP fun r => (s.formula? r).isSome := by
  induction rs generalizing s with
  | nil => rfl
  | cons r rs ih =>
    cases hf : s.formula? r with
    | none => rw [recomputeAll_cons_none hf, ih, List.countP_cons_of_neg (by simp [hf])]
    | some f =>
      rw [recomputeAll_cons_some hf, ih, formula?_congr (content?_replaceValue hf),
        List.countP_cons_of_pos (by simp [hf])]

theorem recomputed_of_formula (h : ∀ r ∈ rs, ∃ f, s.formula? r = some f) :
    (s.recomputeAll rs).1 = rs.length := by
  rw [recomputed_recomputeAll, List.countP_eq_length]
  exact fun r hr => Option.isSome_iff_exists.2 (h r hr)

theorem recomputeAll_append :
    (s.recomputeAll (rs ++ rs')).2 = ((s.recomputeAll rs).2.recomputeAll rs').2 := by
  induction rs generalizing s with
  | nil => rfl
  | cons r rs ih =>
    rw [List.cons_append]
    cases hf : s.formula? r with
    | none => rw [recomputeAll_cons_none hf, recomputeAll_cons_none hf, ih]
    | some f => rw [recomputeAll_cons_some hf, recomputeAll_cons_some hf, ih]

section
variable {before behind : List Ref}

/-- A cell takes the value of its formula when its turn comes, and keeps it if it is not computed again. -/
theorem values_recomputeAll_at_turn (hr : r ∉ behind) (hf : s.formula? r = some f) :
    (s.recomputeAll (before ++ r :: behind)).2.values r =
      some (Formula.value (s.recomputeAll before).2.values f) := by
  have hf' : (s.recomputeAll before).2.formula? r = some f := by rw [formula?_congr content?_recomputeAll, hf]
  rw [recomputeAll_append, recomputeAll_cons_some hf', values_recomputeAll_of_notMem hr,
    values_replaceValue_self hf']

/-- It is the value over the final store if what the cell reads is not computed from then on either. -/
theorem values_recomputeAll_of_turn (hr : r ∉ behind) (hread : ∀ a ∈ r :: behind, ¬ s.Feeds a r)
    (hf : s.formula? r = some f) :
    (s.recomputeAll (before ++ r :: behind)).2.values r =
      some (Formula.value (s.recomputeAll (before ++ r :: behind)).2.values f) := by
  have hunchanged : ∀ a ∈ Formula.references f,
      (s.recomputeAll before).2.values a = (s.recomputeAll (before ++ r :: behind)).2.values a := by
    intro a ha
    rw [recomputeAll_append, values_recomputeAll_of_notMem fun hmem => hread a hmem ⟨f, hf, ha⟩]
  rw [values_recomputeAll_at_turn hr hf, Formula.value_congr hunchanged]

end

theorem values_recomputeAll (h : PrecedentsFirst s.Feeds rs) (hr : r ∈ rs) (hf : s.formula? r = some f) :
    (s.recomputeAll rs).2.values r = some (Formula.value (s.recomputeAll rs).2.values f) := by
  obtain ⟨before, behind, rfl, hturn, hread⟩ := h.exists_turn hr
  exact values_recomputeAll_of_turn hturn hread hf

/-! ### Which cells are computed -/

/-- The cells are computed one after the other, each over what the ones before it left. -/
inductive Computes : Store → List Ref → Store → Prop
  | nil {s : Store} : Computes s [] s
  | cons {s t u : Store} {r : Ref} {rs : List Ref} :
    s.recompute? r = some t → Computes t rs u → Computes s (r :: rs) u

/-- On the way from `s` to `t` the cells of the set are computed in the order of the list, each of them once,
and no others. -/
structure ComputedOnce (s t : Store) (rs : List Ref) (cells : Set Ref) : Prop where
  computes : s.Computes rs t
  nodup : rs.Nodup
  mem : ∀ r, r ∈ rs ↔ r ∈ cells

theorem computes_recomputeAll (h : ∀ r ∈ rs, ∃ f, s.formula? r = some f) :
    s.Computes rs (s.recomputeAll rs).2 := by
  induction rs generalizing s with
  | nil => exact .nil
  | cons r rs ih =>
    obtain ⟨f, hf⟩ := h r List.mem_cons_self
    rw [recomputeAll_cons_some hf]
    refine .cons (by rw [recompute?_eq, hf, Option.map_some]) (ih fun x hx => ?_)
    rw [formula?_congr (content?_replaceValue hf)]
    exact h x (List.mem_cons_of_mem r hx)

theorem Computes.eq_recomputeAll (h : s.Computes rs t) : t = (s.recomputeAll rs).2 := by
  induction h with
  | nil => rfl
  | cons hr _ ih => rw [ih, recomputeAll, hr]

theorem Computes.formula? (h : s.Computes rs t) (hr : r ∈ rs) : ∃ f, s.formula? r = some f := by
  induction h with
  | nil => cases hr
  | @cons s t u x rs hx _ ih =>
    rw [recompute?_eq] at hx
    obtain ⟨f, hf, rfl⟩ := Option.map_eq_some_iff.1 hx
    rcases List.mem_cons.1 hr with rfl | hr
    · exact ⟨f, hf⟩
    · rw [← formula?_congr (content?_replaceValue hf)]
      exact ih hr

namespace ComputedOnce
variable {cells : Set Ref}

/-- At its turn a cell takes the value of its formula over the store that the cells before it left, and keeps
it. -/
theorem exists_turn (h : s.ComputedOnce t rs cells) (hr : r ∈ cells) :
    ∃ before behind u f, rs = before ++ r :: behind ∧ s.Computes before u ∧ s.formula? r = some f ∧
      t.values r = some (Formula.value u.values f) := by
  obtain ⟨before, behind, rfl⟩ := List.append_of_mem ((h.mem r).2 hr)
  have hformula : ∀ x ∈ before ++ r :: behind, ∃ f, s.formula? x = some f := fun x => h.computes.formula?
  obtain ⟨f, hf⟩ := hformula r (List.mem_append_right _ List.mem_cons_self)
  have hbefore := computes_recomputeAll fun x hx => hformula x (List.mem_append_left _ hx)
  have hbehind : r ∉ behind := (List.nodup_cons.1 h.nodup.of_append_right).1
  refine ⟨before, behind, _, f, rfl, hbefore, hf, ?_⟩
  rw [h.computes.eq_recomputeAll, values_recomputeAll_at_turn hbehind hf]

theorem getElem?_of_notMem (h : s.ComputedOnce t rs cells) (hr : r ∉ cells) : t[r]? = s[r]? := by
  rw [h.computes.eq_recomputeAll, getElem?_recomputeAll_of_notMem (mt (h.mem r).1 hr)]

end ComputedOnce

/-! ### The same value in some cells -/

theorem getElem?_foldl_replaceValue :
    (rs.foldl (fun s r => s.replaceValue r v) s)[x]? =
      if x ∈ rs then s[x]?.map ({ · with value := v }) else s[x]? := by
  induction rs generalizing s with
  | nil => rfl
  | cons r rs ih =>
    rw [List.foldl_cons, ih, getElem?_replaceValue]
    by_cases hx : r = x
    · subst hx
      by_cases hmem : r ∈ rs
      · simp [hmem, Function.comp_def]
      · simp [hmem]
    · simp [hx, Ne.symm hx]

theorem content?_foldl_replaceValue (h : ∀ r ∈ rs, ∃ f, s.formula? r = some f) :
    (rs.foldl (fun s r => s.replaceValue r v) s).content? = s.content? := by
  induction rs generalizing s with
  | nil => rfl
  | cons r rs ih =>
    obtain ⟨f, hf⟩ := h r List.mem_cons_self
    have hcontent : (s.replaceValue r v).content? = s.content? := content?_replaceValue hf
    have hrest : ∀ x ∈ rs, ∃ f, (s.replaceValue r v).formula? x = some f := fun x hx => by
      rw [formula?_congr hcontent]
      exact h x (List.mem_cons_of_mem _ hx)
    rw [List.foldl_cons, ih hrest, hcontent]

end Store

end Spreadsheet
