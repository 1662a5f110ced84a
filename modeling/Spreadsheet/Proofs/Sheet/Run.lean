import Spreadsheet.Proofs.Graph.Plan
import Spreadsheet.Proofs.Store.Recompute
import Spreadsheet.Sheet.Edit

/-!
# Runs of operations

A run is a sequence of operations, of which some may fail. Each of them puts an input into a cell, creates
literal cells where there are none, or computes all formulas (`apply_cases`). `Mirrored` holds throughout
every run, in either mode (`mirrored_after`): the edges of the graph are what the stored formulas mention.
Hence what a plan for the graph calls a cycle consists of formula cells, and following the plan changes no
content (`content?_follow`).
-/

namespace Spreadsheet

/-- The content that an input makes. -/
def Cell.contentOf (input : String) : String ⊕ Value :=
  if (Formula.expression? input).isSome then .inl input else .inr (.ofLiteral input)

/-- The cells that an input mentions: none if it is a literal. -/
def Cell.mentionedBy (input : String) : List Ref :=
  if (Formula.expression? input).isSome then Formula.references input else []

namespace Sheet

inductive Op where
  | set (r : Ref) (input : String)
  | setNamed (name input : String)
  | clear (r : Ref)
  | initNamed (name literal : String)
  | importText (text : String)
  | recalculate
  | setMode (mode : Sheet.Mode)

namespace Op

/-- The cell that is set or cleared, with its input. -/
def input? : Op → Option (Ref × String)
  | .set r input => some (r, input)
  | .setNamed name input => (Ref.ofName? name).map (·, input)
  | .clear r => some (r, "")
  | _ => none

/-- The literals for cells that do not exist yet. -/
def literals : Op → List (Ref × String)
  | .initNamed name literal => ((Ref.ofName? name).map (·, literal)).toList
  | .importText text => (Csv.fields text).toOption.getD []
  | _ => []

end Op

/-- The sheet after an operation, whatever the operation answers. -/
def apply (s : Sheet) : Op → Sheet
  | .set r input => (s.set r input).2
  | .setNamed name input => (s.setNamed name input).2
  | .clear r => (s.clear r).2
  | .initNamed name literal => (s.initNamed name literal).2
  | .importText text => (s.importText text).2
  | .recalculate => s.recalculate.2
  | .setMode mode => (s.setMode mode).2

def after (s : Sheet) (ops : List Op) : Sheet := ops.foldl apply s

/-- Creates literal cells one after the other. -/
def initAll (s : Sheet) (literals : List (Ref × String)) : Sheet :=
  literals.foldl (fun s (r, literal) => s.init r literal) s

/-- The cells once those on the cycles of a plan are marked. -/
def marked (s : Sheet) (plan : Plan) : Store :=
  plan.cycles.foldl (fun cells r => cells.replaceValue r (.error .cyclicDependency)) s.cells

/-- The cells that a full recalculation plans for. -/
def formulaSet (s : Sheet) : RefSet := .ofList s.cells.formulaCells

variable {s t : Sheet} {op : Op} {ops : List Op} {r x a b : Ref} {input literal f : String}
variable {plan : Plan} {cells : RefSet}

theorem mem_formulaSet : r ∈ s.formulaSet ↔ ∃ f, s.cells.formula? r = some f := by
  rw [formulaSet, Std.ExtTreeSet.mem_ofList, List.contains_iff_mem, Store.mem_formulaCells]

/-! ### What each operation comes down to -/

section
variable {name : String}

theorem setNamed_of_none (h : Ref.ofName? name = none) :
    s.setNamed name input = (.error (.invalidReference name), s) := by
  rw [setNamed, h]

theorem setNamed_of_some (h : Ref.ofName? name = some r) :
    s.setNamed name input = (.ok (s.set r input).1, (s.set r input).2) := by
  rw [setNamed, h]

theorem initNamed_of_none (h : Ref.ofName? name = none) :
    s.initNamed name literal = (.error (.invalidReference name), s) := by
  rw [initNamed, h]

theorem initNamed_of_some (h : Ref.ofName? name = some r) :
    s.initNamed name literal = (.ok (), s.init r literal) := by
  rw [initNamed, h]

end

/-- An operation that fails, or asks for the mode that there is, creates no cells. -/
theorem apply_cases (s : Sheet) (op : Op) :
    (∃ r input, op.input? = some (r, input) ∧ s.apply op = (s.set r input).2) ∨
      (op.input? = none ∧ s.apply op = s.initAll op.literals) ∨
      (op.input? = none ∧ op.literals = [] ∧ ∃ mode, s.apply op = (recalculate { s with mode }).2) := by
  cases op with
  | set r input => exact .inl ⟨r, input, rfl, rfl⟩
  | clear r => exact .inl ⟨r, "", rfl, rfl⟩
  | setNamed name input =>
    cases hname : Ref.ofName? name with
    | none => exact .inr (.inl (by simp [Op.input?, apply, setNamed, initAll, Op.literals, hname]))
    | some r => exact .inl ⟨r, input, by simp [Op.input?, apply, setNamed, hname]⟩
  | initNamed name literal =>
    cases hname : Ref.ofName? name with
    | none => exact .inr (.inl (by simp [Op.input?, apply, initNamed, initAll, Op.literals, hname]))
    | some r => exact .inr (.inl (by simp [Op.input?, apply, initNamed, initAll, Op.literals, hname]))
  | importText text =>
    refine .inr (.inl ⟨rfl, ?_⟩)
    show (s.importText text).2 = s.initAll ((Csv.fields text).toOption.getD [])
    unfold importText
    rcases Csv.fields text with e | _ | ⟨p, literals⟩ <;> rfl
  | recalculate => exact .inr (.inr ⟨rfl, rfl, s.mode, rfl⟩)
  | setMode mode =>
    by_cases hmode : s.mode = mode
    · exact .inr (.inl (by simp [Op.input?, apply, setMode, initAll, Op.literals, hmode]))
    · exact .inr (.inr ⟨rfl, rfl, mode, by simp [apply, setMode, hmode]⟩)

/-! ### An input put into a cell -/

theorem getElem?_put_of_ne (hx : r ≠ x) : (s.put r input).cells[x]? = s.cells[x]? := by
  unfold put Store.put
  split <;> simp [Std.ExtTreeMap.getElem?_insert, hx]

theorem content?_put :
    (s.put r input).cells.content? x = if r = x then some (Cell.contentOf input) else s.cells.content? x := by
  by_cases hx : r = x
  · subst hx
    unfold Store.content? put Store.put Cell.contentOf
    split <;> simp [Cell.content]
  · rw [if_neg hx, Store.content?, Store.content?, getElem?_put_of_ne hx]

theorem formula?_put :
    (s.put r input).cells.formula? x =
      if r = x then if (Formula.expression? input).isSome then some input else none
      else s.cells.formula? x := by
  rw [Store.formula?_eq_getLeft?, Store.formula?_eq_getLeft?, content?_put, Cell.contentOf]
  split
  · split <;> rfl
  · rfl

theorem values_put_of_formula? (h : (s.put r input).cells.formula? r = some f) :
    (s.put r input).cells.values r = some (Formula.value s.cells.values f) := by
  rw [formula?_put, if_pos rfl] at h
  split at h
  · next hformula =>
    obtain rfl := Option.some.inj h
    simp [put, hformula, Store.values, Store.put]
  · cases h

theorem graph_put : (s.put r input).graph = s.graph.setPrecedents r (Cell.mentionedBy input) := by
  unfold put Graph.clear Cell.mentionedBy
  split <;> rfl

theorem feeds_put :
    (s.put r input).cells.Feeds a b ↔ if b = r then a ∈ Cell.mentionedBy input else s.cells.Feeds a b := by
  unfold Store.Feeds Cell.mentionedBy
  rw [formula?_put]
  by_cases hb : b = r
  · subst hb
    by_cases hformula : (Formula.expression? input).isSome <;> simp [hformula]
  · simp [hb, Ne.symm hb]

theorem mode_set : (s.set r input).2.mode = s.mode := by
  unfold set propagate put
  split <;> split <;> rfl

theorem graph_propagate (r : Ref) : (s.propagate r).2.graph = s.graph := by
  unfold propagate
  split <;> rfl

theorem graph_set : (s.set r input).2.graph = (s.put r input).graph := graph_propagate r

theorem mode_put : (s.put r input).mode = s.mode := by
  unfold put
  split <;> rfl

theorem propagate_of_topological (h : s.mode = .topological) (r : Ref) :
    s.propagate r = s.follow (s.graph.plan (s.graph.affected r)) := by
  rw [propagate, h]

theorem set_of_topological (h : s.mode = .topological) :
    s.set r input =
      (s.put r input).follow ((s.put r input).graph.plan ((s.put r input).graph.affected r)) :=
  propagate_of_topological (mode_put.trans h) r

/-! ### Literal cells created -/

theorem getElem?_init :
    (s.init r literal).cells[x]? =
      if r = x ∧ r ∉ s.cells then some (.ofLiteral literal) else s.cells[x]? := by
  unfold init Store.init?
  by_cases hr : r ∈ s.cells
  · simp [hr]
  · simp [hr, Std.ExtTreeMap.getElem?_insert]

theorem initAll_eq (literals : List (Ref × String)) :
    ∃ cells modified, s.initAll literals = { s with cells, modified } := by
  induction literals generalizing s with
  | nil => exact ⟨s.cells, s.modified, rfl⟩
  | cons p literals ih =>
    obtain ⟨cells, modified, h⟩ := ih (s := s.init p.1 p.2)
    refine ⟨cells, modified, h.trans ?_⟩
    unfold init
    split <;> rfl

theorem mode_initAll (literals : List (Ref × String)) : (s.initAll literals).mode = s.mode := by
  obtain ⟨_, _, h⟩ := initAll_eq (s := s) literals
  rw [h]

theorem graph_initAll (literals : List (Ref × String)) : (s.initAll literals).graph = s.graph := by
  obtain ⟨_, _, h⟩ := initAll_eq (s := s) literals
  rw [h]

/-- A cell that exists stays as it is, and a new one is made from the first literal for it. -/
theorem getElem?_initAll_eq (literals : List (Ref × String)) :
    (s.initAll literals).cells[x]? =
      s.cells[x]?.or ((literals.find? (·.1 = x)).map fun p => .ofLiteral p.2) := by
  induction literals generalizing s with
  | nil => simp [initAll]
  | cons p literals ih =>
    have hstep : (s.init p.1 p.2).cells[x]? = _ := getElem?_init
    refine (ih (s := s.init p.1 p.2)).trans ?_
    rw [hstep, List.find?_cons]
    by_cases hp : p.1 = x
    · subst hp
      cases hs : s.cells[p.1]? <;> simp [Std.ExtTreeMap.mem_iff_isSome_getElem?, hs]
    · simp [hp]

theorem getElem?_initAll (literals : List (Ref × String)) :
    (s.initAll literals).cells[x]? = s.cells[x]? ∨
      x ∉ s.cells ∧ ∃ literal, (x, literal) ∈ literals ∧
        (s.initAll literals).cells[x]? = some (.ofLiteral literal) := by
  rw [getElem?_initAll_eq]
  cases hs : s.cells[x]? with
  | some c => exact .inl rfl
  | none =>
    cases hfind : literals.find? (·.1 = x) with
    | none => exact .inl rfl
    | some p =>
      have hx : x ∉ s.cells := by simp [Std.ExtTreeMap.mem_iff_isSome_getElem?, hs]
      obtain rfl : p.1 = x := by simpa using List.find?_some hfind
      exact .inr ⟨hx, p.2, List.mem_of_find?_eq_some hfind, rfl⟩

theorem formula?_initAll (literals : List (Ref × String)) :
    (s.initAll literals).cells.formula? = s.cells.formula? := by
  funext x
  unfold Store.formula?
  rcases getElem?_initAll (s := s) (x := x) literals with h | ⟨hx, literal, -, h⟩
  · rw [h]
  · rw [h, Std.ExtTreeMap.getElem?_eq_none hx]
    rfl

theorem init_of_not_modified (h : (s.init r literal).modified = false) : s.init r literal = s := by
  unfold init at h ⊢
  split
  · next hinit =>
    rw [hinit] at h
    cases h
  · rfl

theorem initAll_of_not_modified {literals : List (Ref × String)} (h : (s.initAll literals).modified = false) :
    s.initAll literals = s := by
  induction literals generalizing s with
  | nil => rfl
  | cons p literals ih =>
    have hrest : s.initAll (p :: literals) = s.init p.1 p.2 := ih h
    rw [hrest] at h ⊢
    exact init_of_not_modified h

/-! ### The graph mirrors the formulas -/

/-- The edges of the graph are what the stored formulas mention. -/
structure Mirrored (s : Sheet) : Prop where
  wellFormed : s.graph.WellFormed
  edge : ∀ a b, s.graph.Edge a b ↔ s.cells.Feeds a b

namespace Mirrored

theorem edge_eq (h : s.Mirrored) : s.graph.Edge = s.cells.Feeds := by
  funext a b
  exact propext (h.edge a b)

theorem congr (h : s.Mirrored) (hg : t.graph = s.graph) (hf : t.cells.formula? = s.cells.formula?) :
    t.Mirrored where
  wellFormed := hg ▸ h.wellFormed
  edge := by
    rw [hg, Store.feeds_congr hf]
    exact h.edge

/-- The mode, the file and the mark of changes have nothing to do with it. -/
theorem assign (h : s.Mirrored) (mode : Sheet.Mode) (path : Option String) (modified : Bool) :
    Mirrored { s with mode, path, modified } :=
  ⟨h.wellFormed, h.edge⟩

theorem empty (mode : Sheet.Mode) : (Sheet.empty mode).Mirrored where
  wellFormed := Graph.wellFormed_empty
  edge a b := by simp [Sheet.empty, Graph.Edge, Graph.empty, Graph.dependents, Store.Feeds, Store.formula?]

theorem put (h : s.Mirrored) : (s.put r input).Mirrored where
  wellFormed := by
    rw [graph_put]
    exact Graph.wellFormed_setPrecedents h.wellFormed
  edge a b := by rw [graph_put, Graph.edge_setPrecedents h.wellFormed, feeds_put, h.edge]

theorem initAll (h : s.Mirrored) (literals : List (Ref × String)) : (s.initAll literals).Mirrored :=
  h.congr (graph_initAll literals) (formula?_initAll literals)

/-! ### Recalculation keeps the contents -/

theorem planned (h : s.Mirrored) (cells : RefSet) : s.graph.Planned cells (s.graph.plan cells) :=
  h.wellFormed.plan_spec cells

theorem formula?_of_cycle (h : s.Mirrored) (hp : s.graph.Planned cells plan) (hr : r ∈ plan.cycles) :
    ∃ f, s.cells.formula? r = some f := by
  obtain ⟨a, -, har⟩ := exists_pred_of_cycle ((hp.cycles r).1 hr)
  exact ((h.edge a r).1 har.step).formula?

theorem content?_marked (h : s.Mirrored) (hp : s.graph.Planned cells plan) :
    (s.marked plan).content? = s.cells.content? :=
  Store.content?_foldl_replaceValue fun _ hr => h.formula?_of_cycle hp hr

theorem content?_follow (h : s.Mirrored) (hp : s.graph.Planned cells plan) :
    (s.follow plan).2.cells.content? = s.cells.content? :=
  Store.content?_recomputeAll.trans (h.content?_marked hp)

theorem content?_recalculate (h : s.Mirrored) : s.recalculate.2.cells.content? = s.cells.content? :=
  h.content?_follow (h.planned _)

theorem content?_propagate (h : s.Mirrored) : (s.propagate r).2.cells.content? = s.cells.content? := by
  unfold propagate
  split
  · exact h.content?_follow (h.planned _)
  · exact Store.content?_recomputeAll

theorem recalculate (h : s.Mirrored) : s.recalculate.2.Mirrored :=
  h.congr rfl (Store.formula?_congr h.content?_recalculate)

theorem formula?_set (h : s.Mirrored) : (s.set r input).2.cells.formula? = (s.put r input).cells.formula? :=
  Store.formula?_congr h.put.content?_propagate

theorem set (h : s.Mirrored) : (s.set r input).2.Mirrored := h.put.congr graph_set h.formula?_set

theorem content?_set (h : s.Mirrored) :
    (s.set r input).2.cells.content? x =
      if r = x then some (Cell.contentOf input) else s.cells.content? x := by
  rw [Sheet.set, h.put.content?_propagate, content?_put]

theorem apply (h : s.Mirrored) (op : Op) : (s.apply op).Mirrored := by
  rcases s.apply_cases op with ⟨r, input, -, happly⟩ | ⟨-, happly⟩ | ⟨-, -, mode, happly⟩ <;> rw [happly]
  · exact h.set
  · exact h.initAll _
  · exact (h.assign mode s.path s.modified).recalculate

theorem after (h : s.Mirrored) (ops : List Op) : (s.after ops).Mirrored := by
  induction ops generalizing s with
  | nil => exact h
  | cons op ops ih => exact ih (h.apply op)

end Mirrored

/-- A sheet that some run leaves. -/
def Reachable (s : Sheet) : Prop := ∃ mode ops, s = (Sheet.empty mode).after ops

theorem mirrored_after (mode : Sheet.Mode) (ops : List Op) : ((Sheet.empty mode).after ops).Mirrored :=
  (Mirrored.empty mode).after ops

theorem Reachable.mirrored (h : s.Reachable) : s.Mirrored := by
  obtain ⟨mode, ops, rfl⟩ := h
  exact mirrored_after mode ops

end Sheet

end Spreadsheet
