import Spreadsheet.Proofs.Store.Recompute

/-!
# Writes that a formula does not see

A store is changed one cell at a time: a cell is put, the value of one that exists is replaced or computed
anew, or a literal is created where there is no cell. Each of these changes what is read in its own cell and
nowhere else (`values_write_of_ne`). A formula reads the cells that it mentions and no others, so it gives the
same answer, an error and its cause included, in all stores that agree on these cells, and no writes to other
cells can tell two such stores apart (`evaluate_writeAll_congr`).
-/

namespace Spreadsheet

namespace Store

/-- A change of one cell. -/
inductive Write where
  | put (r : Ref) (value : Value) (formula : Option String)
  | replaceValue (r : Ref) (value : Value)
  | recompute (r : Ref)
  | init (r : Ref) (literal : String)

/-- The cell that is changed. -/
def Write.cell : Write → Ref
  | .put r _ _ | .replaceValue r _ | .recompute r | .init r _ => r

/-- The store after a write. One that does not apply to what is in its cell changes nothing. -/
def write (s : Store) : Write → Store
  | .put r value formula => s.put r value formula
  | .replaceValue r value => s.replaceValue r value
  | .recompute r => (s.recompute? r).getD s
  | .init r literal => (s.init? r literal).getD s

def writeAll (s : Store) (writes : List Write) : Store := writes.foldl write s

variable {s t : Store} {r : Ref} {w : Write} {writes : List Write} {text : String}

theorem values_insert_of_ne {c : Cell} {x : Ref} (hr : x ≠ r) : values (s.insert x c) r = s.values r := by
  simp [values, Std.ExtTreeMap.getElem?_insert, hr]

theorem values_write_of_ne (hr : w.cell ≠ r) : (s.write w).values r = s.values r := by
  cases w with
  | put x value formula => exact values_insert_of_ne hr
  | replaceValue x value => exact values_replaceValue_of_ne hr
  | recompute x =>
    rw [write, recompute?_eq]
    cases s.formula? x with
    | none => rfl
    | some f => exact values_replaceValue_of_ne hr
  | init x literal =>
    rw [write, init?]
    split
    · rfl
    · exact values_insert_of_ne hr

theorem values_writeAll_of_notMem (hr : ∀ w ∈ writes, w.cell ≠ r) : (s.writeAll writes).values r = s.values r := by
  induction writes generalizing s with
  | nil => rfl
  | cons w writes ih =>
    have hrest : (s.writeAll (w :: writes)).values r = (s.write w).values r :=
      ih fun w' hw' => hr w' (List.mem_cons_of_mem _ hw')
    exact hrest.trans (values_write_of_ne (hr w List.mem_cons_self))

/-- Writes to other cells than the mentioned ones leave the answer of a formula as it is. -/
theorem evaluate_writeAll (h : ∀ w ∈ writes, w.cell ∉ Formula.references text) :
    Formula.evaluate (s.writeAll writes).values text = Formula.evaluate s.values text :=
  Formula.evaluate_congr fun _ hr => values_writeAll_of_notMem fun w hw hwr => h w hw (hwr ▸ hr)

/-- In two stores that agree on the cells that a formula mentions, also on which of them exist, the formula
gives the same answer, whatever is written to other cells of the one and of the other. -/
theorem evaluate_writeAll_congr (h : ∀ r ∈ Formula.references text, s.values r = t.values r) :
    Formula.evaluate s.values text = Formula.evaluate t.values text ∧
      ∀ writes writes' : List Write, (∀ w ∈ writes ++ writes', w.cell ∉ Formula.references text) →
        Formula.evaluate (s.writeAll writes).values text = Formula.evaluate (t.writeAll writes').values text ∧
          Formula.value (s.writeAll writes).values text = Formula.value (t.writeAll writes').values text := by
  have hsame : Formula.evaluate s.values text = Formula.evaluate t.values text := Formula.evaluate_congr h
  refine ⟨hsame, fun writes writes' hother => ?_⟩
  have hwritten : Formula.evaluate (s.writeAll writes).values text =
      Formula.evaluate (t.writeAll writes').values text :=
    calc
      _ = Formula.evaluate s.values text := evaluate_writeAll fun w hw => hother w (List.mem_append_left _ hw)
      _ = Formula.evaluate t.values text := hsame
      _ = _ := (evaluate_writeAll fun w hw => hother w (List.mem_append_right _ hw)).symm
  exact ⟨hwritten, by rw [Formula.value, Formula.value, hwritten]⟩

/-- A formula that mentions `A1` and the missing `B1`, over two stores that differ in `C1`. On one side `D1` is
created, on the other one `C1` is computed anew. -/
theorem evaluate_writeAll_congr_elsewhere :
    let s := put ∅ ⟨0, 0⟩ (.text "007") none
    let t := put s ⟨0, 2⟩ (.error .cyclicDependency) (some "=C1/0")
    Formula.evaluate (s.writeAll [.init ⟨0, 3⟩ "x"]).values "=A1+(B1" =
      Formula.evaluate (t.writeAll [.recompute ⟨0, 2⟩]).values "=A1+(B1" := by
  intro s t
  have hagree : ∀ r ∈ Formula.references "=A1+(B1", s.values r = t.values r := by decide +kernel
  exact ((evaluate_writeAll_congr hagree).2 [.init ⟨0, 3⟩ "x"] [.recompute ⟨0, 2⟩] (by decide +kernel)).1

end Store

end Spreadsheet
