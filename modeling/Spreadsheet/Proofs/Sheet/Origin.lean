import Spreadsheet.Proofs.Sheet.Run

/-!
# Where the content of a cell comes from

Recalculation writes to formula cells only and keeps their formulas, so contents change by operations
alone: the last input that a run gives to a cell is its content, and the literal that created it if there
is none (`content?_after`). A text can be read back from the content that it makes
(`Cell.inputOf_contentOf`), so no run loses or alters what was put in.
-/

namespace Spreadsheet

theorem Value.display_ofLiteral (text : String) : (Value.ofLiteral text).display = text := by
  unfold ofLiteral
  split
  · split
    · assumption
    · rfl
  · rfl

theorem Formula.isSome_expression?_iff {text : String} :
    (expression? text).isSome ↔ text.toList.head? = some '=' := by
  unfold expression?
  split
  · next h => simp [h]
  · next h =>
    cases hcs : text.toList with
    | nil => simp
    | cons c cs =>
      have hc : c ≠ '=' := fun hc => h cs (hc ▸ hcs)
      simp [hc]

namespace Cell
variable {c : Cell} {text : String}

/-- The text to edit, of a content. -/
def inputOf : String ⊕ Value → String := Sum.elim id Value.display

theorem input_eq : c.input = inputOf c.content := by
  rcases c with ⟨v, _ | f⟩ <;> rfl

theorem inputOf_contentOf : inputOf (contentOf text) = text := by
  unfold contentOf
  split
  · rfl
  · exact Value.display_ofLiteral text

theorem inputOf_literal : inputOf (.inr (.ofLiteral text)) = text := Value.display_ofLiteral text

theorem hasFormula_eq : c.hasFormula = c.content.isLeft := by
  rcases c with ⟨v, _ | f⟩ <;> rfl

theorem isLeft_contentOf : (contentOf text).isLeft ↔ text.toList.head? = some '=' := by
  rw [← Formula.isSome_expression?_iff, contentOf]
  split
  · next h => simp [h]
  · next h => simp [h]

/-- A formula is as it was typed, and any other value is the one of the text that it shows. -/
structure Entered (c : Cell) : Prop where
  formula : ∀ f, c.formula = some f → f.toList.head? = some '='
  literal : c.formula = none → c.value = .ofLiteral c.input

namespace Entered

theorem of_literal (h : c.content = .inr (.ofLiteral text)) : c.Entered := by
  have hinput : c.input = text := by rw [input_eq, h, inputOf_literal]
  rcases c with ⟨v, _ | f⟩
  · refine ⟨fun f hf => ?_, fun _ => hinput ▸ Sum.inr.inj h⟩
    cases hf
  · cases h

theorem of_contentOf (h : c.content = contentOf text) : c.Entered := by
  by_cases hformula : (Formula.expression? text).isSome
  · rw [contentOf, if_pos hformula] at h
    rcases c with ⟨v, _ | f⟩
    · cases h
    · obtain rfl : f = text := Sum.inl.inj h
      refine ⟨fun f' hf' => ?_, fun hnone => ?_⟩
      · exact Option.some.inj hf' ▸ Formula.isSome_expression?_iff.1 hformula
      · cases hnone
  · rw [contentOf, if_neg hformula] at h
    exact of_literal h

theorem congr {d : Cell} (h : c.Entered) (hcontent : d.content = c.content) : d.Entered := by
  rcases c with ⟨v, _ | f⟩ <;> rcases d with ⟨w, _ | g⟩
  · obtain rfl : w = v := Sum.inr.inj hcontent
    exact h
  · cases hcontent
  · cases hcontent
  · obtain rfl : g = f := Sum.inl.inj hcontent
    exact ⟨h.formula, fun hnone => by cases hnone⟩

theorem isFilled_iff (h : c.Entered) : c.isFilled ↔ c.input ≠ "" := by
  rcases c with ⟨v, _ | f⟩
  · simp [isFilled, hasFormula, input]
  · -- a formula has at least its `=`
    have hne : f ≠ "" := by
      rintro rfl
      cases h.formula "" rfl
    simp [isFilled, hasFormula, input, hne]

end Entered

end Cell

namespace Sheet

namespace Op

/-- The input that the operation gives to a cell. -/
def inputTo? (op : Op) (r : Ref) : Option String :=
  op.input?.bind fun (x, input) => if x = r then some input else none

/-- The literal that the operation has for a cell that does not exist yet. -/
def literalTo? (op : Op) (r : Ref) : Option String := (op.literals.find? (·.1 = r)).map Prod.snd

end Op

/-- The last input that a run gives to a cell, nothing if the run leaves the cell alone. -/
def lastInput (ops : List Op) (r : Ref) : Option String := ops.reverse.findSome? (·.inputTo? r)

/-- The first literal that a run has for a cell. -/
def firstLiteral (ops : List Op) (r : Ref) : Option String := ops.findSome? (·.literalTo? r)

variable {s : Sheet} {op : Op} {ops : List Op} {r : Ref} {c : Cell}

theorem lastInput_cons : lastInput (op :: ops) r = (lastInput ops r).or (op.inputTo? r) := by
  rw [lastInput, lastInput, List.reverse_cons, List.findSome?_append, List.findSome?_singleton]

theorem firstLiteral_cons : firstLiteral (op :: ops) r = (op.literalTo? r).or (firstLiteral ops r) := by
  rw [firstLiteral, List.findSome?_cons]
  cases op.literalTo? r <;> rfl

theorem Op.literals_of_input? {p : Ref × String} (h : op.input? = some p) : op.literals = [] := by
  cases op with
  | initNamed | importText | recalculate | setMode => cases h
  | _ => rfl

namespace Mirrored

/-- One operation: its input for the cell, or else the old content, or else its literal for it. -/
theorem content?_apply (h : s.Mirrored) :
    (s.apply op).cells.content? r =
      ((op.inputTo? r).map Cell.contentOf).or
        ((s.cells.content? r).or ((op.literalTo? r).map (.inr <| .ofLiteral ·))) := by
  rcases s.apply_cases op with ⟨x, input, hinput, happly⟩ | ⟨hinput, happly⟩ |
    ⟨hinput, hliterals, mode, happly⟩
  -- an operation has inputs or literals, never both
  · rw [happly, h.content?_set, Op.inputTo?, hinput, Op.literalTo?, Op.literals_of_input? hinput]
    by_cases hx : x = r
    · simp [hx]
    · simp [hx]
  · rw [happly, Op.inputTo?, hinput, Op.literalTo?, Store.content?, getElem?_initAll_eq, Store.content?]
    cases s.cells[r]? with
    | some c => rfl
    | none => cases op.literals.find? (·.1 = r) <;> rfl
  · have hmode : Mirrored { s with mode } := h.assign mode s.path s.modified
    rw [happly, Op.inputTo?, hinput, Op.literalTo?, hliterals, hmode.content?_recalculate]
    simp

theorem content?_after (h : s.Mirrored) :
    (s.after ops).cells.content? r =
      ((lastInput ops r).map Cell.contentOf).or
        ((s.cells.content? r).or ((firstLiteral ops r).map (.inr <| .ofLiteral ·))) := by
  induction ops generalizing s with
  | nil => simp [Sheet.after, lastInput, firstLiteral]
  | cons op ops ih =>
    refine (ih (h.apply op)).trans ?_
    rw [h.content?_apply, lastInput_cons, firstLiteral_cons]
    simp only [Option.map_or, Option.or_assoc]

end Mirrored

theorem content?_after_empty (mode : Sheet.Mode) (ops : List Op) (r : Ref) :
    (((Sheet.empty mode).after ops).cell? r).map Cell.content =
      ((lastInput ops r).map Cell.contentOf).or ((firstLiteral ops r).map (.inr <| .ofLiteral ·)) := by
  have hnone : (Sheet.empty mode).cells.content? r = none := by simp [Sheet.empty, Store.content?]
  refine (Mirrored.empty mode).content?_after.trans ?_
  rw [hnone, Option.none_or]

/-- What a run leaves in a cell: the text of the last input for it, or else of the literal that created it,
and nothing if the run has neither. Only an input makes a formula. -/
theorem input_after (mode : Sheet.Mode) (ops : List Op) (r : Ref) :
    (((Sheet.empty mode).after ops).cell? r).map Cell.input = (lastInput ops r).or (firstLiteral ops r) ∧
      ∀ c, ((Sheet.empty mode).after ops).cell? r = some c →
        (c.hasFormula ↔ ∃ text, lastInput ops r = some text ∧ text.toList.head? = some '=') ∧
        (c.formula = none → (lastInput ops r).or (firstLiteral ops r) = some c.display) := by
  have hcontent := content?_after_empty mode ops r
  have hinput : (((Sheet.empty mode).after ops).cell? r).map Cell.input =
      (lastInput ops r).or (firstLiteral ops r) := by
    have hread := congrArg (Option.map Cell.inputOf) hcontent
    simpa only [Option.map_or, Option.map_map, Function.comp_def, ← Cell.input_eq, Cell.inputOf_contentOf,
      Cell.inputOf_literal, Option.map_id_fun', id] using hread
  refine ⟨hinput, fun c hc => ⟨?_, fun hf => ?_⟩⟩
  · rw [hc, Option.map_some] at hcontent
    rw [Cell.hasFormula_eq]
    cases hlast : lastInput ops r with
    | none =>
      rw [hlast, Option.map_none, Option.none_or] at hcontent
      obtain ⟨literal, -, hliteral⟩ := Option.map_eq_some_iff.1 hcontent.symm
      simp [← hliteral]
    | some text =>
      rw [hlast] at hcontent
      rw [Option.some.inj hcontent, Cell.isLeft_contentOf]
      simp
  · rw [← hinput, hc, Option.map_some, Cell.input, hf]
    rfl

end Sheet

end Spreadsheet
