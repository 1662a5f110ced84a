import Spreadsheet.Proofs.Sheet.Canonical
import Spreadsheet.Proofs.Sheet.Footprint

/-!
# Marks of cycles in depth-first mode

The walk of depth-first mode knows nothing of cycles: a cell on one keeps what an evaluation of its formula
gave, which never is the mark (`Evaluated.marked`), and no cell is reported. This is so for edits and for
cells that are created. To compute all formulas anew is to follow a plan in that mode as well, and what is
reported and marked then are the cells on cycles (`InSession.marked_recalculate_iff`). `cycles_in_depthFirst`
tells the two apart.
-/

namespace Spreadsheet
open Relation

theorem Value.ofLiteral_ne_error {text : String} {e : ErrorKind} : ofLiteral text ≠ .error e := by
  unfold ofLiteral
  split
  · split <;> nofun
  · nofun

/-- A formula cell holds what it held or what an evaluation gave, whichever cells are computed. -/
theorem Store.values_recomputeAll_or {s : Store} {r : Ref} {rs : List Ref} {f : String}
    (hf : s.formula? r = some f) :
    (s.recomputeAll rs).2.values r = s.values r ∨
      ∃ lookup, (s.recomputeAll rs).2.values r = some (Formula.value lookup f) := by
  induction rs generalizing s with
  | nil => exact .inl rfl
  | cons r₀ rs ih =>
    cases hf₀ : s.formula? r₀ with
    | none =>
      rw [recomputeAll_cons_none hf₀]
      exact ih hf
    | some f₀ =>
      rw [recomputeAll_cons_some hf₀]
      have hf' : (s.replaceValue r₀ (Formula.value s.values f₀)).formula? r = some f := by
        rw [formula?_congr (content?_replaceValue hf₀), hf]
      refine (ih hf').elim (fun hsame => ?_) .inr
      by_cases hr : r₀ = r
      · subst hr
        obtain rfl := Option.some.inj (hf₀.symm.trans hf)
        exact .inr ⟨s.values, hsame.trans (values_replaceValue_self hf)⟩
      · exact .inl (hsame.trans (values_replaceValue_of_ne hr))

namespace Sheet
variable {s t : Sheet} {op : Op} {r : Ref} {input : String} {v : Value} {e : ErrorKind}

/-- The cell holds the mark of cells on cycles. -/
def Marked (s : Sheet) (r : Ref) : Prop := s.cells.values r = some (.error .cyclicDependency)

instance : Decidable (s.Marked r) := inferInstanceAs (Decidable (_ = _))

/-- The report of the recalculation that an operation runs. -/
def report? (s : Sheet) : Op → Option Report
  | .set r input => some (s.set r input).1
  | .setNamed name input => (s.setNamed name input).1.toOption
  | .clear r => some (s.clear r).1
  | .initNamed .. | .importText _ => none
  | .recalculate => some s.recalculate.1
  | .setMode mode => (s.setMode mode).1

/-- The operation computes all formulas anew. -/
def ComputesAll (s : Sheet) : Op → Prop
  | .recalculate => True
  | .setMode mode => s.mode ≠ mode
  | _ => False

/-! ### Reports -/

theorem report?_of_input? (h : op.input? = some (r, input)) :
    s.report? op = some (s.set r input).1 ∧ s.apply op = (s.set r input).2 := by
  cases op with
  | set | clear =>
    cases h
    exact ⟨rfl, rfl⟩
  | setNamed name input' =>
    obtain ⟨r', hname, hpair⟩ := Option.map_eq_some_iff.1 h
    cases hpair
    have hset : s.setNamed name input = _ := setNamed_of_some hname
    exact ⟨congrArg (·.1.toOption) hset, congrArg Prod.snd hset⟩
  | initNamed | importText | recalculate | setMode => cases h

/-- Without an input and without a full recalculation nothing is computed. -/
theorem report?_of_not_computesAll (hinput : op.input? = none) (h : ¬ s.ComputesAll op) :
    s.report? op = none ∧ ∃ literals, s.apply op = s.initAll literals := by
  cases op with
  | set | clear => cases hinput
  | recalculate => exact absurd trivial h
  | setMode mode =>
    have hset : s.setMode mode = _ := if_pos (not_not.1 h)
    exact ⟨congrArg Prod.fst hset, [], congrArg Prod.snd hset⟩
  | setNamed name input' =>
    have hset : s.setNamed name input' = _ := setNamed_of_none (Option.map_eq_none_iff.1 hinput)
    exact ⟨congrArg (·.1.toOption) hset, [], congrArg Prod.snd hset⟩
  | initNamed name literal =>
    refine ⟨rfl, ?_⟩
    cases hname : Ref.ofName? name with
    | none => exact ⟨[], congrArg Prod.snd (initNamed_of_none hname)⟩
    | some r => exact ⟨[(r, literal)], congrArg Prod.snd (initNamed_of_some hname)⟩
  | importText text =>
    refine ⟨rfl, ?_⟩
    show ∃ literals, (s.importText text).2 = s.initAll literals
    unfold importText
    rcases Csv.fields text with e | _ | ⟨p, literals⟩
    · exact ⟨[], rfl⟩
    · exact ⟨[], rfl⟩
    · exact ⟨p :: literals, rfl⟩

theorem exists_recalculate_of_computesAll (h : s.ComputesAll op) :
    ∃ mode, s.report? op = some (recalculate { s with mode }).1 ∧
      s.apply op = (recalculate { s with mode }).2 := by
  cases op with
  | recalculate => exact ⟨s.mode, rfl, rfl⟩
  | setMode mode =>
    have hset : s.setMode mode = _ := if_neg h
    exact ⟨mode, congrArg Prod.fst hset, congrArg Prod.snd hset⟩
  | set | setNamed | clear | initNamed | importText => cases h

/-! ### Evaluations leave no mark -/

namespace InSession

theorem ne_error_of_literal (h : s.InSession) (hr : s.cells.content? r = some (.inr v)) : v ≠ .error e := by
  induction h generalizing v with
  | empty => simp [Sheet.empty, Store.content?] at hr
  | assign _ _ _ _ ih => exact ih hr
  | @apply s op h ih =>
    rw [h.mirrored.content?_apply] at hr
    cases hinput : op.inputTo? r with
    | some input =>
      rw [hinput, Option.map_some, Option.some_or, Cell.contentOf] at hr
      split at hr
      · cases hr
      · cases hr
        exact Value.ofLiteral_ne_error
    | none =>
      rw [hinput, Option.map_none, Option.none_or] at hr
      cases hold : s.cells.content? r with
      | some k =>
        rw [hold, Option.some_or] at hr
        exact ih (hold.trans hr)
      | none =>
        rw [hold, Option.none_or] at hr
        obtain ⟨literal, -, hliteral⟩ := Option.map_eq_some_iff.1 hr
        cases hliteral
        exact Value.ofLiteral_ne_error

theorem formula?_of_marked (h : s.InSession) (hr : s.Marked r) : ∃ f, s.cells.formula? r = some f := by
  obtain ⟨c, hc, hvalue⟩ := Option.map_eq_some_iff.1 hr
  cases hf : c.formula with
  | some f => exact ⟨f, by rw [Store.formula?, hc, Option.bind_some, hf]⟩
  | none =>
    have hcontent : s.cells.content? r = some (.inr c.value) := by
      rw [Store.content?, hc, Option.map_some, Cell.content, hf]
    exact absurd hvalue (h.ne_error_of_literal hcontent)

end InSession

/-- Formula cells hold what they held, or what an evaluation of their formulas gave. -/
def Evaluated (s t : Sheet) : Prop :=
  ∀ r f, t.cells.formula? r = some f →
    t.cells.values r = s.cells.values r ∨ ∃ lookup, t.cells.values r = some (Formula.value lookup f)

theorem Evaluated.marked (h : s.Evaluated t) (ht : t.InSession) (hr : t.Marked r) : s.Marked r := by
  obtain ⟨f, hf⟩ := ht.formula?_of_marked hr
  rcases h r f hf with hsame | ⟨lookup, hvalue⟩
  · exact hsame.symm.trans hr
  · exact absurd (Option.some.inj (hvalue.symm.trans hr)) Formula.value_ne_cyclicDependency

theorem evaluated_initAll (literals : List (Ref × String)) : s.Evaluated (s.initAll literals) := by
  intro r f hf
  rw [formula?_initAll] at hf
  rcases getElem?_initAll (s := s) (x := r) literals with hsame | ⟨hr, -⟩
  · exact .inl (congrArg (Option.map Cell.value) hsame)
  · rw [Store.formula?, Std.ExtTreeMap.getElem?_eq_none hr] at hf
    cases hf

theorem set_of_depthFirst (hmode : s.mode = .depthFirst) (r : Ref) (input : String) :
    ∃ met, (s.set r input).1.cycles = [] ∧
      (s.set r input).2.cells = ((s.put r input).cells.recomputeAll met).2 := by
  have h := propagate_of_depthFirst (mode_put.trans hmode) (s := s.put r input) r
  exact ⟨_, by rw [set, h], by rw [set, h]⟩

theorem Mirrored.evaluated_set (h : s.Mirrored) (hmode : s.mode = .depthFirst) (r : Ref) (input : String) :
    s.Evaluated (s.set r input).2 := by
  obtain ⟨met, -, hcells⟩ := set_of_depthFirst hmode r input
  intro x f hf
  rw [h.formula?_set] at hf
  rw [hcells]
  refine (Store.values_recomputeAll_or hf).elim (fun hsame => ?_) .inr
  by_cases hx : r = x
  · subst hx
    exact .inr ⟨_, hsame.trans (values_put_of_formula? hf)⟩
  · exact .inl (hsame.trans (congrArg (Option.map Cell.value) (getElem?_put_of_ne hx)))

/-! ### A full recalculation -/

theorem InSession.marked_recalculate_iff (h : s.InSession) :
    s.recalculate.2.Marked r ↔ TransGen s.graph.Edge r r := by
  have hsettled := h.mirrored.settled_recalculate r
  constructor
  · intro hr
    obtain ⟨f, hf⟩ := (h.apply .recalculate).formula?_of_marked hr
    exact (hsettled.marked f hf).1 hr
  · intro hcycle
    obtain ⟨a, -, har⟩ := exists_pred_of_cycle hcycle
    obtain ⟨f, hf⟩ := ((h.mirrored.recalculate.edge a r).1 har).formula?
    exact (hsettled.marked f hf).2 hcycle

/-- Only a full recalculation has to do with cycles in depth-first mode: whatever else is done reports none
and marks no cell. In either mode, what a full recalculation reports and marks are the cells on cycles. -/
theorem cycles_in_depthFirst (h : s.InSession) (op : Op) :
    (s.mode = .depthFirst → ¬ s.ComputesAll op →
        (∀ report, s.report? op = some report → report.cycles = []) ∧
          s.Evaluated (s.apply op) ∧ ∀ r, (s.apply op).Marked r → s.Marked r) ∧
      (s.ComputesAll op → ∃ report, s.report? op = some report ∧
        ∀ r, (r ∈ report.cycles ↔ TransGen s.graph.Edge r r) ∧
          ((s.apply op).Marked r ↔ TransGen s.graph.Edge r r)) := by
  constructor
  · intro hmode hall
    suffices hdone : (∀ report, s.report? op = some report → report.cycles = []) ∧ s.Evaluated (s.apply op) from
      ⟨hdone.1, hdone.2, fun r => hdone.2.marked (h.apply op)⟩
    cases hinput : op.input? with
    | some p =>
      obtain ⟨hreport, happly⟩ := report?_of_input? (s := s) hinput
      obtain ⟨_, hcycles, -⟩ := set_of_depthFirst hmode p.1 p.2
      rw [hreport, happly]
      exact ⟨fun report hr => Option.some.inj hr ▸ hcycles, h.mirrored.evaluated_set hmode p.1 p.2⟩
    | none =>
      obtain ⟨hreport, literals, happly⟩ := report?_of_not_computesAll hinput hall
      rw [hreport, happly]
      exact ⟨nofun, evaluated_initAll literals⟩
  · intro hall
    obtain ⟨mode, hreport, happly⟩ := exists_recalculate_of_computesAll hall
    have hsession : InSession { s with mode } := h.assign mode s.path s.modified
    rw [happly]
    exact ⟨_, hreport, fun r => ⟨hsession.mirrored.mem_cycles_recalculate, hsession.marked_recalculate_iff⟩⟩

/-- An edit in depth-first mode that closes a cycle. -/
theorem cycles_in_depthFirst_two_cells :
    let s := (Sheet.empty .depthFirst).after [.set ⟨0, 0⟩ "=B1"]
    (s.set ⟨0, 1⟩ "=A1").1.cycles = [] ∧ ¬ (s.set ⟨0, 1⟩ "=A1").2.Marked ⟨0, 0⟩ := by
  intro s
  have hsession : s.InSession := .after (.empty _) _
  have hset := (cycles_in_depthFirst hsession (.set ⟨0, 1⟩ "=A1")).1 (by decide +kernel) id
  have hbefore : ¬ s.Marked ⟨0, 0⟩ := by decide +kernel
  exact ⟨hset.1 _ rfl, mt (hset.2.2 ⟨0, 0⟩) hbefore⟩

/-- With the cycle closed a full recalculation reports both cells and marks them, in depth-first mode too. -/
theorem cycles_in_depthFirst_recalculated :
    let s := (Sheet.empty .depthFirst).after [.set ⟨0, 0⟩ "=B1", .set ⟨0, 1⟩ "=A1"]
    s.mode = .depthFirst ∧ s.recalculate.1.cycles = [⟨0, 0⟩, ⟨0, 1⟩] ∧
      ¬ s.Marked ⟨0, 0⟩ ∧ s.recalculate.2.Marked ⟨0, 0⟩ := by
  decide +kernel

end Sheet

end Spreadsheet
